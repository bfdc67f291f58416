import ScopeCheck.Check.Constructor
import ScopeCheck.Check.Members

/-!
# Checking classes

All checks of the classes of a scope, in the order in which their findings are listed: classes that
are declared twice, classes in namespaces that share a name with one outside, circles, members,
constructors and types of fields.
-/

namespace ScopeCheck

/-- Checks that every class is declared once. -/
def checkDuplicateClasses (registry : Registry) : List Finding :=
  (sortedKeys registry.classes).flatMap fun key =>
    match declaredAs registry.classes key with
    | [] => []
    | first :: others => others.map fun other =>
      (Finding.of (.duplicateClass registry.scopeName other.fullName) other.file
        other.name.range).withRelated
        s!"'{first.fullName}' is first declared here" first.file first.name.range

namespace Hierarchy

/-- Checks that a class in a namespace does not have the name of a class outside of all
namespaces. -/
def checkSharedName (hierarchy : Hierarchy) (decl : Declaration ClassDecl) : Option Finding :=
  if decl.isNamespaced then
    match hierarchy.classes.get? decl.name.lower with
    | some outer =>
      if outer.isNamespaced then none
      else
        some ((Finding.of (.namespacedClassSharesName decl.name.text) decl.file
          decl.name.range).withRelated
          s!"Non-namespaced class '{outer.fullName}' is declared here" outer.file outer.name.range)
    | none => none
  else none

end Hierarchy

/-- Checks that the types of the fields of a class are declared. -/
def checkFieldTypes (registry : Registry) (decl : Declaration ClassDecl) : List Finding :=
  decl.node.fields.filterMap fun field =>
    match field.note with
    | none => none
    | some note =>
      match note.type with
      | .custom name =>
        if registry.isKnownType name decl.namespaceKey then none
        else some (.of (.typeNotFound note.text) decl.file note.range)
      | _ => none

/-- Checks the classes of a scope. -/
def checkClasses (registry : Registry) : List Finding :=
  let hierarchy := Hierarchy.ofRegistry registry
  checkDuplicateClasses registry
    ++ hierarchy.classes.values.filterMap hierarchy.checkSharedName
    ++ hierarchy.checkCircles
    ++ hierarchy.checkMembers registry
    ++ hierarchy.classes.values.flatMap checkConstructor
    ++ hierarchy.classes.values.flatMap (checkFieldTypes registry)

end ScopeCheck
