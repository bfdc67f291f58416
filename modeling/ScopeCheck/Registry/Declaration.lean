import ScopeCheck.Platform.Functions
import ScopeCheck.Script.Visit

/-!
# Declarations

What a script declares for its whole scope: namespace blocks, classes, enums, constants,
interfaces and functions that stand at file level or in namespace blocks. What stands deeper, in
a function or under a condition, is not declared. A declaration is known by its full name, that is
its own name after that of the innermost namespace block around it.
-/

namespace ScopeCheck

/-- One declaration of a named thing. -/
structure Declaration (α : Type) where
  /-- The package path of the file. -/
  file : String
  /-- The declared name. -/
  name : Ident
  /-- The full name of the namespace around it, in lower case. -/
  namespaceKey : Option String
  /-- The name with that of the namespace in front, as written. -/
  fullName : String
  /-- What is declared. -/
  node : α

namespace Declaration

variable {α : Type}

/-- The full name in lower case. -/
def key (decl : Declaration α) : String := Text.lower decl.fullName

/-- Whether the declaration stands in a namespace. -/
def isNamespaced (decl : Declaration α) : Bool := decl.namespaceKey.isSome

end Declaration

/-- A block of a namespace at its place. -/
structure NamespaceBlock where
  /-- The script that the block stands in. -/
  script : Script
  /-- The way to the block. -/
  owner : Path
  /-- The name of the namespace. -/
  name : DottedName

/-- The full name of the namespace of a block, in lower case. -/
def NamespaceBlock.key (block : NamespaceBlock) : String := block.name.lower

namespace Visit

/-- Whether a node stands at file level or in namespace blocks only. -/
def isTopLevel (visit : Visit) : Bool :=
  visit.above.all fun place => place.namespaceDecl?.isSome

/-- The declaration of a thing by a node. -/
def declaration {α : Type} (visit : Visit) (file : String) (name : Ident) (node : α) :
    Declaration α :=
  { file
    name
    namespaceKey := visit.namespaceKey?
    fullName :=
      match visit.namespaceDecl? with
      | some decl => s!"{decl.name.text}.{name.text}"
      | none => name.text
    node }

end Visit

namespace Script

/-- The statements of a script that declare something for the whole scope, with their visits. -/
def topLevel (script : Script) : List (Visit × Stmt) :=
  script.visits.filterMap fun visit =>
    match visit.node with
    | .statement stmt => if visit.isTopLevel then some (visit, stmt) else none
    | _ => none

/-- The namespace blocks of a script. -/
def blocks (script : Script) : List NamespaceBlock :=
  script.topLevel.filterMap fun
    | (visit, .namespaceDecl decl _) => some ⟨script, visit.path, decl.name⟩
    | _ => none

/-- The classes that a script declares. -/
def classes (script : Script) : List (Declaration ClassDecl) :=
  script.topLevel.filterMap fun
    | (visit, .classDecl decl _) => some (visit.declaration script.path decl.name decl)
    | _ => none

/-- The enums that a script declares. -/
def enums (script : Script) : List (Declaration EnumDecl) :=
  script.topLevel.filterMap fun
    | (visit, .enumDecl decl _) => some (visit.declaration script.path decl.name decl)
    | _ => none

/-- The constants that a script declares. -/
def consts (script : Script) : List (Declaration ConstDecl) :=
  script.topLevel.filterMap fun
    | (visit, .constDecl decl _) => some (visit.declaration script.path decl.name decl)
    | _ => none

/-- The interfaces that a script declares. -/
def interfaces (script : Script) : List (Declaration InterfaceDecl) :=
  script.topLevel.filterMap fun
    | (visit, .interfaceDecl decl _) => some (visit.declaration script.path decl.name decl)
    | _ => none

/-- The functions that a script declares. -/
def functions (script : Script) : List (Declaration FunctionDecl) :=
  script.topLevel.filterMap fun
    | (visit, .functionDecl decl _) => some (visit.declaration script.path decl.name decl)
    | _ => none

end Script

/-- Something that can be called by its name. -/
inductive Callable where
  /-- A function of a script. -/
  | declared (decl : Declaration FunctionDecl)
  /-- A function of the platform. -/
  | ofPlatform (function : GlobalFunction)

namespace Callable

/-- The name of a callable, with its namespace. -/
def name : Callable → String
  | declared decl => decl.fullName
  | ofPlatform function => function.name

/-- The name in lower case. -/
def key (callable : Callable) : String := Text.lower callable.name

/-- The least and the greatest number of arguments. -/
def arity : Callable → Nat × Nat
  | declared decl => decl.node.func.arity
  | ofPlatform function => (function.least, function.most)

/-- Where the name is bound. A function of the platform is written nowhere. -/
def bindingRange : Callable → Range
  | declared decl => decl.name.range
  | ofPlatform _ => .zero

end Callable

end ScopeCheck
