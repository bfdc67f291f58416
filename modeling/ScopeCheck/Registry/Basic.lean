import ScopeCheck.Platform.Basic
import ScopeCheck.Registry.Declaration
import ScopeCheck.Scope
import ScopeCheck.Script.Binding

/-!
# The registry of a scope

The registry lists everything that the scripts of a scope declare. Scripts are taken in the order
of their keys, so of several declarations of one name the first is always the same one. A name is
looked up inside the namespace it is used in and then outside of all namespaces.

The registry also holds the tables that exist only while the scope is examined: the table of the
whole scope, and for each namespace the joint table of its blocks.
-/

namespace ScopeCheck

/-- A namespace of a scope. Its blocks and declarations are found by its key. -/
structure NamespaceEntry where
  /-- The full name as first written. -/
  fullName : String
  /-- The keys of the namespaces right inside it, in the order in which they were first met. -/
  children : List String
deriving DecidableEq, Repr

/-- The last part of the name of a namespace. -/
def NamespaceEntry.lastPart (entry : NamespaceEntry) : String :=
  ((Text.split '.' entry.fullName).getLast?).getD entry.fullName

/-- Enters a namespace for each further part of a name, each inside the one before. `outer` is the
part of the name that has been passed. -/
def enterParts (entries : Keyed String NamespaceEntry) (outer : String) :
    List String → Keyed String NamespaceEntry
  | [] => entries
  | part :: rest =>
    let fullName := if outer.isEmpty then part else s!"{outer}.{part}"
    let key := Text.lower fullName
    let entered :=
      if entries.contains key then entries
      else
        (entries.put key ⟨fullName, []⟩).adjust (Text.lower outer) fun parent =>
          { parent with children := parent.children ++ [key] }
    enterParts entered fullName rest

/-- Enters the namespace of a name and all namespaces around it. -/
def enterNamespace (entries : Keyed String NamespaceEntry) (name : String) :
    Keyed String NamespaceEntry :=
  (enterParts entries "" (Text.split '.' name)).putNew (Text.lower name) ⟨name, []⟩

/-- Everything that the scripts of a scope declare. -/
structure Registry where
  /-- The name of the scope. -/
  scopeName : String
  /-- The scripts, in the order of their keys. -/
  files : List Script
  /-- The platform that the scripts run on. -/
  platform : Platform
  /-- The namespace blocks. -/
  blocks : List NamespaceBlock
  /-- The namespaces, each under its key. -/
  namespaces : Keyed String NamespaceEntry
  /-- The classes. -/
  classes : List (Declaration ClassDecl)
  /-- The enums. -/
  enums : List (Declaration EnumDecl)
  /-- The constants. -/
  consts : List (Declaration ConstDecl)
  /-- The interfaces. -/
  interfaces : List (Declaration InterfaceDecl)
  /-- The functions. -/
  functions : List (Declaration FunctionDecl)

/-- The keys under which a name is looked up inside a namespace: inside it first, then outside of
all namespaces. -/
def lookupKeys (name : String) (enclosing : Option String) : List String :=
  match enclosing with
  | some outer =>
    if outer.isEmpty then [Text.lower name]
    else [s!"{Text.lower outer}.{Text.lower name}", Text.lower name]
  | none => [Text.lower name]

/-- The first declaration under the first key that has one. -/
def firstDeclared {α : Type} (decls : List (Declaration α)) (name : String)
    (enclosing : Option String) : Option (Declaration α) :=
  (lookupKeys name enclosing).findSome? fun key => decls.find? fun decl => decl.key = key

namespace Registry

/-- The registry of a chain of scopes on a platform. -/
def build (chain : ScopeChain) (platform : Platform) : Registry :=
  let files := chain.sortedFiles
  let blocks := files.flatMap Script.blocks
  { scopeName := chain.scope.name
    files
    platform
    blocks
    namespaces := blocks.foldl (fun entries block => enterNamespace entries block.name.text) .empty
    classes := files.flatMap Script.classes
    enums := files.flatMap Script.enums
    consts := files.flatMap Script.consts
    interfaces := files.flatMap Script.interfaces
    functions := files.flatMap Script.functions }

/-- Everything that can be called by name: functions of the scripts before those of the
platform. -/
def callables (registry : Registry) : List Callable :=
  registry.functions.map .declared ++ globalFunctions.map .ofPlatform

/-- The namespace of a name. -/
def namespace? (registry : Registry) (name : String) (enclosing : Option String) :
    Option NamespaceEntry :=
  (lookupKeys name enclosing).findSome? registry.namespaces.get?

/-- The class of a name. -/
def class? (registry : Registry) (name : String) (enclosing : Option String) :
    Option (Declaration ClassDecl) :=
  firstDeclared registry.classes name enclosing

/-- The enum of a name. -/
def enum? (registry : Registry) (name : String) (enclosing : Option String) :
    Option (Declaration EnumDecl) :=
  firstDeclared registry.enums name enclosing

/-- The constant of a name. -/
def const? (registry : Registry) (name : String) (enclosing : Option String) :
    Option (Declaration ConstDecl) :=
  firstDeclared registry.consts name enclosing

/-- The interface of a name. -/
def interface? (registry : Registry) (name : String) (enclosing : Option String) :
    Option (Declaration InterfaceDecl) :=
  firstDeclared registry.interfaces name enclosing

/-- What is called by a name. -/
def callable? (registry : Registry) (name : String) (enclosing : Option String) :
    Option Callable :=
  (lookupKeys name enclosing).findSome? fun key =>
    registry.callables.find? fun callable => callable.key = key

/-- The enum and, if it has it, the value of a name of the form `enum.value`. -/
def enumItem? (registry : Registry) (name : String) (enclosing : Option String) :
    Option (Declaration EnumDecl × Option EnumItem) :=
  match Text.splitAtLast? '.' name with
  | none => none
  | some (enumName, itemName) =>
    (registry.enum? enumName enclosing).map fun decl =>
      (decl, decl.node.items.find? fun item =>
        Text.sameIgnoringAsciiCase item.name.text itemName)

/-- Whether a name is that of a class, an interface or an enum. -/
def isKnownType (registry : Registry) (name : String) (enclosing : Option String) : Bool :=
  (registry.class? name enclosing).isSome || (registry.interface? name enclosing).isSome
    || (registry.enum? name enclosing).isSome

/-- The keys of the declarations that stand right in blocks of a namespace, in order. -/
def keysWithin {α : Type} (decls : List (Declaration α)) (key : String) : List String :=
  (decls.filter fun decl => decl.namespaceKey = some key).map Declaration.key

/-- The blocks of a namespace. -/
def blocksOf (registry : Registry) (key : String) : List NamespaceBlock :=
  registry.blocks.filter fun block => block.key = key

/-- The name of a function as it exists at run time. -/
def runtimeName (fullName : String) : String :=
  String.ofList (fullName.toList.map fun c => if c = '.' then '_' else c)

/-- The table of the whole scope: the functions of the platform, what every script declares at
file level, and the run-time names of functions in namespaces. -/
def scopeTable (registry : Registry) : SymbolTable TableRef :=
  { name := s!"scope {registry.scopeName}"
    bindings :=
      (globalFunctions.map fun function => ⟨function.name, .zero, .function⟩)
        ++ (registry.files.flatMap fun file => (file.fileTable file.bindings).listing)
        ++ ((registry.functions.filter Declaration.isNamespaced).map fun decl =>
          ⟨runtimeName decl.fullName, decl.name.range, .function⟩)
    siblings := []
    parents := [] }

/-- The bindings of one block, in listing order. -/
def blockListing (block : NamespaceBlock) : List Binding :=
  (Script.ownedBy block.owner block.script.bindings).mergeSort Binding.listedBefore

/-- The joint table of all blocks of a namespace. -/
def namespaceTable (registry : Registry) (key : String) (entry : NamespaceEntry) :
    SymbolTable TableRef :=
  { name := s!"namespace {entry.fullName}"
    bindings := (registry.blocksOf key).flatMap blockListing
    siblings := []
    parents := [] }

end Registry

end ScopeCheck
