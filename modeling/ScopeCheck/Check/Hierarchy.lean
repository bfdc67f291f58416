import ScopeCheck.Problem
import ScopeCheck.Registry.Basic
import ScopeCheck.Trail

/-!
# The class hierarchy of a scope

Of all declarations of one class name, the first counts. The hierarchy holds these, in the order of
their keys, and links each class to the class that it extends, if that is declared. Links come from
what users write, so they may run in a circle; every circle is reported once, from its smallest
key on.
-/

namespace ScopeCheck

/-- The keys of some declarations, each once, in order. -/
def sortedKeys {α : Type} (decls : List (Declaration α)) : List String :=
  (decls.map Declaration.key).eraseDups.mergeSort textAtOrBefore

/-- The declarations under a key. -/
def declaredAs {α : Type} (decls : List (Declaration α)) (key : String) : List (Declaration α) :=
  decls.filter fun decl => decl.key = key

/-- The classes of a scope and their parents. -/
structure Hierarchy where
  /-- The declaration that counts for each class, under its key. -/
  classes : Keyed String (Declaration ClassDecl)
  /-- The key of the parent of a class, under its own. -/
  links : Keyed String String

/-- The class that a class extends. A name of several parts is looked up outside of all namespaces
only. -/
def Registry.parentClass? (registry : Registry) (decl : Declaration ClassDecl) :
    Option (Declaration ClassDecl) :=
  match decl.node.parent with
  | none => none
  | some parent =>
    registry.class? parent.text (if 1 < parent.parts.length then none else decl.namespaceKey)

namespace Hierarchy

/-- The hierarchy of the classes of a registry. -/
def ofRegistry (registry : Registry) : Hierarchy :=
  let canonical := (sortedKeys registry.classes).filterMap fun key =>
    (registry.classes.find? fun decl => decl.key = key).map fun decl => (key, decl)
  { classes := .ofList canonical
    links := .ofList (canonical.filterMap fun (key, decl) =>
      (registry.parentClass? decl).map fun parent => (key, parent.key)) }

/-- The classes above a class, nearest first. The way up ends at the first class met twice. -/
def ancestors (hierarchy : Hierarchy) (key : String) : List (Declaration ClassDecl) :=
  (Trail.after hierarchy.links.get? hierarchy.classes.keys key).filterMap hierarchy.classes.get?

/-! ## Circles -/

/-- The smaller of two texts. -/
def smallerText (left right : String) : String :=
  if textAtOrBefore left right then left else right

/-- A circle turned so that it starts at its smallest key. -/
def turnToSmallest : List String → List String
  | [] => []
  | first :: rest =>
    let smallest := rest.foldl smallerText first
    (first :: rest).dropWhile (· ≠ smallest) ++ (first :: rest).takeWhile (· ≠ smallest)

/-- The circle that the way up from a class runs into, from its smallest key on. -/
def circleFrom (hierarchy : Hierarchy) (start : String) : Option (List String) :=
  let trail := Trail.follow hierarchy.links.get? hierarchy.classes.keys [start] start
  match trail.2 with
  | .again target => some (turnToSmallest ((start :: trail.1).dropWhile (· ≠ target)))
  | .stop | .outside _ => none

/-- The circles of a hierarchy, each once. -/
def circles (hierarchy : Hierarchy) : List (List String) :=
  (hierarchy.classes.keys.filterMap hierarchy.circleFrom).eraseDups

/-- Reports a circle at the class of its smallest key. -/
def reportCircle (hierarchy : Hierarchy) (circle : List String) : Option Finding :=
  match circle.filterMap hierarchy.classes.get? with
  | [] => none
  | anchor :: others =>
    let names := (anchor :: others ++ [anchor]).map Declaration.fullName
    some (.of (.circularReference (" -> ".intercalate names)) anchor.file anchor.name.range)

/-- Reports every circle. -/
def checkCircles (hierarchy : Hierarchy) : List Finding :=
  hierarchy.circles.filterMap hierarchy.reportCircle

end Hierarchy

end ScopeCheck
