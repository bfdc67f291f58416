import ScopeCheck.Script.Visit
import ScopeCheck.Table.Graph

/-!
# The symbol tables of a script

Every file, namespace block and function owns a symbol table.

* The table of a file or of a namespace block holds what is declared directly in it and exists when
  the program runs: functions, classes and constants. A declaration inside a function is bound
  nowhere.
* The table of a function holds its receiver `m`, its parent class as `super` if it is a method of
  a class that extends one, its parameters, and every variable that its body assigns or loops
  over. Statements of nested functions bind in the tables of those.
* The parent of every table but that of the file is the innermost table around its owner.

A table is referred to by the key of its file and the path of its owner. Tables that exist only
while a scope is examined are referred to by the number of the examination.
-/

namespace ScopeCheck

/-- A reference to a symbol table. -/
inductive TableRef where
  /-- The table of the owner at a path of a file. -/
  | inFile (fileKey : String) (owner : Path)
  /-- The table of a whole scope, made for one examination. -/
  | ofScope (examination : Nat)
  /-- The joint table of all blocks of a namespace, made for one examination. -/
  | ofNamespace (examination : Nat) (key : String)
deriving DecidableEq, Repr

namespace Visit

/-- What a declaration binds in the table around it. -/
def declared : Stmt → List Binding
  | .functionDecl decl _ => [⟨decl.name.text, decl.name.range, .function⟩]
  | .classDecl decl _ => [⟨decl.name.text, decl.name.range, .function⟩]
  | .constDecl decl _ => [⟨decl.name.text, decl.name.range, decl.value.inferredType⟩]
  | _ => []

/-- The variable that a statement assigns or loops over. -/
def assigned : Stmt → List Binding
  | .assign name value _ => [⟨name.text, name.range, value.inferredType⟩]
  | .forEach item _ _ _ => [⟨item.text, item.range, .dynamic⟩]
  | _ => []

/-- The class of which a function is a method. -/
def methodOf? (visit : Visit) : Option ClassDecl :=
  match visit.parent? with
  | some (.member (.method _)) => visit.classDecl?
  | _ => none

/-- What a function binds before its body: its receiver, its parent class and its parameters. -/
def received (visit : Visit) (func : Func) : List Binding :=
  let receiver :=
    match visit.methodOf? with
    | some decl =>
      ⟨"m", decl.name.range, .custom decl.name.text⟩ ::
        decl.parent.toList.map fun parent => ⟨"super", parent.range, .custom parent.text⟩
    | none => [⟨"m", func.range, .object⟩]
  receiver ++ func.params.map fun param => ⟨param.name.text, param.name.range, param.type⟩

/-- What a node binds, with the owner of the table in which it does. -/
def binds (visit : Visit) : List (Path × Binding) :=
  match visit.node with
  | .statement stmt =>
    match visit.funcPlace? with
    | some place => (assigned stmt).map fun binding => (place.path, binding)
    | none => (declared stmt).map fun binding => (visit.table, binding)
  | .function func => (visit.received func).map fun binding => (visit.path, binding)
  | _ => []

/-- What the table of a node is called, if it owns one. -/
def tableName? (visit : Visit) : Option String :=
  match visit.node with
  | .statement (.namespaceDecl decl _) => some s!"namespace {decl.name.text}"
  | .function _ => some "function"
  | _ => none

end Visit

namespace Script

/-- All bindings of a script in the order of visiting, each with the owner of its table. -/
def bindings (script : Script) : List (Path × Binding) := script.visits.flatMap Visit.binds

/-- Of bindings with their owners, those of one owner. -/
def ownedBy (owner : Path) (bindings : List (Path × Binding)) : List Binding :=
  (bindings.filter fun entry => entry.1 = owner).map Prod.snd

/-- The reference to a table of the script. -/
def ref (script : Script) (owner : Path) : TableRef := .inFile script.key owner

/-- The table of the file itself. -/
def fileTable (script : Script) (bindings : List (Path × Binding)) : SymbolTable TableRef :=
  { name := s!"file {script.path}"
    bindings := ownedBy [] bindings
    siblings := []
    parents := [] }

/-- The table of a node, if it owns one. -/
def tableAt? (script : Script) (bindings : List (Path × Binding)) (visit : Visit) :
    Option (SymbolTable TableRef) :=
  visit.tableName?.map fun name =>
    { name
      bindings := ownedBy visit.path bindings
      siblings := []
      parents := [some (script.ref visit.table)] }

/-- The tables of a script, that of the file first and each before those inside it. -/
def tableEntries (script : Script) : List (TableRef × SymbolTable TableRef) :=
  let bindings := script.bindings
  (script.ref [], script.fileTable bindings) ::
    script.visits.filterMap fun visit =>
      (script.tableAt? bindings visit).map fun table => (script.ref visit.path, table)

/-- The tables of some scripts. -/
def tablesOf (scripts : List Script) : Tables TableRef :=
  .ofList (scripts.flatMap tableEntries)

end Script

end ScopeCheck
