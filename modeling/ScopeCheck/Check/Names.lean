import ScopeCheck.Check.Hierarchy
import ScopeCheck.Check.Objects

/-!
# Checking names

A chain of names is resolved from left to right. A first name that the symbol tables bind ends the
check, since members of values are not known before run time; a call of such a name is checked for
its number of arguments if the name is bound by the function itself and not by a local that hides
it. A first name that the tables do not bind must be that of a namespace or an enum, and the names
after it are looked up inside. Of one chain, at most the first name that leads nowhere is reported.

Objects must be made of classes, and the types of parameters and results must be known. Enums must
be declared once and have values of one type.
-/

namespace ScopeCheck

/-- What the front of a chain of names has led to. -/
inductive Resolved where
  /-- A namespace, by its full name. -/
  | inNamespace (fullName : String)
  /-- An enum. -/
  | enum (decl : Declaration EnumDecl)
  /-- Something to call. -/
  | callable (callable : Callable)
  /-- A class, a constant or a value of an enum. -/
  | declared

/-- What following a chain of names comes to. -/
inductive Followed where
  /-- The whole chain has led somewhere. -/
  | reached (target : Resolved)
  /-- The rest of the chain is a member of a value, which is not checked. -/
  | member
  /-- A name of the chain leads nowhere. -/
  | broken (finding : Finding)

namespace Registry

/-- Looks up one more name in a namespace. -/
def stepNamespace (registry : Registry) (file fullName : String) (part : Ident) : Followed :=
  let qualified := s!"{fullName}.{part.text}"
  match registry.namespace? qualified none with
  | some entry => .reached (.inNamespace entry.fullName)
  | none =>
    match registry.enum? qualified none with
    | some decl => .reached (.enum decl)
    | none =>
      match registry.callable? qualified none with
      | some callable => .reached (.callable callable)
      | none =>
        if (registry.class? qualified none).isSome || (registry.const? qualified none).isSome then
          .reached .declared
        else .broken (.of (.cannotFindName part.text (some fullName)) file part.range)

/-- Looks up one more name in an enum. -/
def stepEnum (registry : Registry) (file : String) (decl : Declaration EnumDecl)
    (part : Ident) : Followed :=
  match registry.enumItem? s!"{decl.fullName}.{part.text}" none with
  | some (_, some _) => .reached .declared
  | _ =>
    .broken ((Finding.of (.unknownEnumValue part.text decl.fullName) file part.range).withRelated
      s!"Enum '{decl.fullName}' is declared here" decl.file decl.name.range)

/-- Looks up one more name of a chain. -/
def stepChain (registry : Registry) (file : String) : Resolved → Ident → Followed
  | .inNamespace fullName, part => registry.stepNamespace file fullName part
  | .enum decl, part => registry.stepEnum file decl part
  | .callable _, _ => .member
  | .declared, _ => .member

/-- Follows the rest of a chain. -/
def followChain (registry : Registry) (file : String) (current : Resolved) :
    List Ident → Followed
  | [] => .reached current
  | part :: rest =>
    match registry.stepChain file current part with
    | .reached next => registry.followChain file next rest
    | .member => .member
    | .broken finding => .broken finding

/-- Finds the namespace or the enum of the first name of a chain. -/
def resolveRoot (registry : Registry) (file : String) (enclosing : Option String)
    (root : Ident) : Followed :=
  match registry.namespace? root.text enclosing with
  | some entry => .reached (.inNamespace entry.fullName)
  | none =>
    match registry.enum? root.text enclosing with
    | some decl => .reached (.enum decl)
    | none => .broken (.of (.cannotFindName root.text none) file root.range)

end Registry

/-- The numbers of arguments that are taken, as text. -/
def arityText (arity : Nat × Nat) : String :=
  if arity.1 = arity.2 then toString arity.1 else s!"{arity.1}-{arity.2}"

/-- Checks the number of arguments of a call. -/
def checkArity (file : String) (range : Range) (callable : Callable) (count : Nat) :
    Option Finding :=
  let arity := callable.arity
  if arity.1 ≤ count && count ≤ arity.2 then none
  else some (.of (.argumentCount (arityText arity) count) file range)

/-- Whether one of the bindings is that of the callable itself, and not of a local that hides
it. -/
def bindsCallable (bindings : List Binding) (callable : Callable) : Bool :=
  bindings.any fun binding => binding.range = callable.bindingRange

/-- Checks a chain whose first name the tables bind. -/
def checkBound (registry : Registry) (file : String) (chain : ChainUse) (root : Ident)
    (rest : List Ident) (bindings : List Binding) : Option Finding :=
  match chain.usage, rest with
  | .callee count, [] =>
    match registry.callable? root.text chain.namespaceKey with
    | some callable =>
      if bindsCallable bindings callable then checkArity file chain.range callable count else none
    | none => none
  | _, _ => none

/-- Checks what a whole chain has led to. -/
def checkReached (file : String) (chain : ChainUse) : Resolved → Option Finding
  | .inNamespace fullName => some (.of (.notAVariable "Namespace" fullName) file chain.range)
  | .callable callable =>
    match chain.usage with
    | .callee count => checkArity file chain.range callable count
    | .value | .parentClass => none
  | .enum _ => none
  | .declared => none

/-- Checks a chain whose first name the tables do not bind. -/
def checkUnbound (registry : Registry) (file : String) (chain : ChainUse) (root : Ident)
    (rest : List Ident) : Option Finding :=
  match registry.resolveRoot file chain.namespaceKey root with
  | .broken finding => some finding
  | .member => none
  | .reached start =>
    match registry.followChain file start rest with
    | .broken finding => some finding
    | .member => none
    | .reached target => checkReached file chain target

/-- Resolves a chain of names; the tables are those of the linked scope. -/
def checkChain (registry : Registry) (tables : Tables TableRef) (script : Script)
    (chain : ChainUse) : Option Finding :=
  match chain.parts with
  | [] => none
  | root :: rest =>
    match Tables.lookup tables (script.ref chain.table) root.text with
    | some bindings => checkBound registry script.path chain root rest bindings
    | none => checkUnbound registry script.path chain root rest

/-- Checks that an object is made of a class. -/
def checkNew (registry : Registry) (file : String) (use : NewUse) : Option Finding :=
  let name := use.className.text
  let enclosing := use.namespaceKey
  if (registry.class? name enclosing).isSome then none
  else if (registry.namespace? name enclosing).isSome || (registry.enum? name enclosing).isSome
      || (registry.callable? name enclosing).isSome || (registry.const? name enclosing).isSome then
    some (.of (.notConstructable name) file use.className.range)
  else some (.of (.classNotFound name registry.scopeName) file use.className.range)

/-- Whether a type is built in or declared. -/
def isValidType (registry : Registry) (type : ValueType) (enclosing : Option String) : Bool :=
  match type with
  | .custom name => registry.isKnownType name enclosing
  | _ => true

/-- Checks the types of the result and of the parameters of a function. -/
def checkSignature (registry : Registry) (file : String) (use : FuncUse) : List Finding :=
  let result := use.func.returnType.toList.filterMap fun note =>
    if isValidType registry note.type use.namespaceKey then none
    else some (.of (.invalidReturnType note.text) file note.range)
  let params := use.func.params.filterMap fun param =>
    match param.note with
    | none => none
    | some note =>
      if isValidType registry note.type use.namespaceKey then none
      else some (.of (.invalidParameterType param.name.text note.text) file note.range)
  result ++ params

/-- Checks everything that the inventory of a script lists. -/
def checkInventory (registry : Registry) (tables : Tables TableRef) (inventory : Inventory) :
    List Finding :=
  let script := inventory.script
  inventory.chains.filterMap (checkChain registry tables script)
    ++ inventory.news.filterMap (checkNew registry script.path)
    ++ inventory.funcs.flatMap (checkSignature registry script.path)
    ++ inventory.createObjects.flatMap (checkCreateObject registry.platform script.path)

/-- Checks that every enum is declared once. -/
def checkDuplicateEnums (registry : Registry) : List Finding :=
  (sortedKeys registry.enums).flatMap fun key =>
    match declaredAs registry.enums key with
    | [] => []
    | first :: others => others.map fun other =>
      (Finding.of (.duplicateEnum registry.scopeName other.fullName) other.file
        other.name.range).withRelated
        s!"Enum '{first.fullName}' is first declared here" first.file first.name.range

/-- The type of the values of an enum: that of its first literal value, else integer. -/
def enumType (decl : EnumDecl) : ValueType :=
  (decl.items.findSome? fun item => item.value.bind Expr.literalType).getD .integer

/-- Checks the value of one item of an enum of a given type. -/
def checkEnumItem (file : String) (type : ValueType) (item : EnumItem) : Option Finding :=
  match item.value with
  | some value =>
    match value.literalType with
    | some found =>
      if found = type then none else some (.of (.enumValueType type.text) file value.range)
    | none => none
  | none =>
    if type = .integer then none else some (.of (.enumValueRequired type.text) file item.range)

/-- Checks that the values of every enum have one type. -/
def checkEnumValues (registry : Registry) : List Finding :=
  (sortedKeys registry.enums).flatMap fun key =>
    (declaredAs registry.enums key).flatMap fun decl =>
      decl.node.items.filterMap (checkEnumItem decl.file (enumType decl.node))

end ScopeCheck
