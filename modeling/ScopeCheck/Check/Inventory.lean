import ScopeCheck.Script.Visit

/-!
# Inventories

The inventory of a script lists what has to be checked in it, in the order of visiting: every
longest chain of names, every clause that names a parent class, every making of an object, every
function and every call of `CreateObject`. Each entry but that of a call of `CreateObject` tells the
namespace it is written in, and a chain also the symbol table in effect. An inventory depends on the
script alone, so several scopes can share it.
-/

namespace ScopeCheck

/-- How a chain of names is used. -/
inductive Usage where
  /-- As a value. -/
  | value
  /-- As the callee of a call with so many arguments. -/
  | callee (arguments : Nat)
  /-- As the parent of a class. -/
  | parentClass
deriving DecidableEq, Repr

/-- A chain of names at its place. -/
structure ChainUse where
  /-- The names, left to right. -/
  parts : List Ident
  /-- How the chain is used. -/
  usage : Usage
  /-- The full name of the namespace around it, in lower case. -/
  namespaceKey : Option String
  /-- The owner of the symbol table in effect. -/
  table : Path
  /-- Where the chain is written. -/
  range : Range
deriving DecidableEq, Repr

/-- The making of an object at its place. -/
structure NewUse where
  /-- The name of the class. -/
  className : DottedName
  /-- The full name of the namespace around it, in lower case. -/
  namespaceKey : Option String
deriving DecidableEq, Repr

/-- A function at its place. -/
structure FuncUse where
  /-- The function. -/
  func : Func
  /-- The full name of the namespace around it, in lower case. -/
  namespaceKey : Option String

/-- What has to be checked in a script. -/
structure Inventory where
  /-- The script. -/
  script : Script
  /-- The chains of names. -/
  chains : List ChainUse
  /-- The makings of objects. -/
  news : List NewUse
  /-- The functions. -/
  funcs : List FuncUse
  /-- The calls of `CreateObject`. -/
  createObjects : List Expr

/-- Whether an expression is a call of `CreateObject`. -/
def Expr.isCreateObject : Expr → Bool
  | call callee _ _ => callee.isNamed "CreateObject"
  | _ => false

namespace Visit

/-- How an expression is used by the node above it. The callee is the first child of a call. -/
def usage (visit : Visit) : Usage :=
  match visit.parent?, visit.path with
  | some (.expression (.call _ args _)), 0 :: _ => .callee args.length
  | _, _ => .value

/-- Whether an expression is the object of a member access, so that a longer chain covers it. -/
def isObjectOfMember (visit : Visit) : Bool :=
  match visit.parent? with
  | some (.expression (.dottedGet ..)) => true
  | _ => false

/-- The chain of names that a node is, if it is one that no longer chain covers. -/
def chainUse? (visit : Visit) : Option ChainUse :=
  match visit.node with
  | .statement (.classDecl decl _) =>
    decl.parent.map fun parent =>
      ⟨parent.parts, .parentClass, visit.namespaceKey?, visit.table, parent.range⟩
  | .expression expr =>
    if visit.isObjectOfMember then none
    else
      expr.dottedParts.map fun parts =>
        ⟨parts, visit.usage, visit.namespaceKey?, visit.table, expr.range⟩
  | _ => none

/-- The making of an object that a node is. -/
def newUse? (visit : Visit) : Option NewUse :=
  match visit.node with
  | .expression (.new className _ _) => some ⟨className, visit.namespaceKey?⟩
  | _ => none

/-- The function that a node is. -/
def funcUse? (visit : Visit) : Option FuncUse :=
  match visit.node with
  | .function func => some ⟨func, visit.namespaceKey?⟩
  | _ => none

/-- The call of `CreateObject` that a node is. -/
def createObject? (visit : Visit) : Option Expr :=
  match visit.node with
  | .expression expr => if expr.isCreateObject then some expr else none
  | _ => none

end Visit

/-- The inventory of a script. -/
def Inventory.collect (script : Script) : Inventory :=
  let visits := script.visits
  { script
    chains := visits.filterMap Visit.chainUse?
    news := visits.filterMap Visit.newUse?
    funcs := visits.filterMap Visit.funcUse?
    createObjects := visits.filterMap Visit.createObject? }

end ScopeCheck
