import ScopeCheck.Check.Hierarchy

/-!
# Checking inherited members

A class must not have two members of one name. A member is compared with the nearest inherited
member of its name: a method may replace only a method and a field only a field; a method has to
say that it replaces another and keeps its access level; a field keeps its type or narrows it.
-/

namespace ScopeCheck

/-- What a member is called in messages. -/
def Member.kindWord (target : Member) : String := if target.isMethod then "method" else "field"

namespace Hierarchy

/-- The nearest inherited member of a name, with the class that has it. -/
def inherited? (hierarchy : Hierarchy) (key name : String) :
    Option (Declaration ClassDecl × Member) :=
  (hierarchy.ancestors key).findSome? fun ancestor =>
    (ancestor.node.members.find? fun target =>
      Text.sameIgnoringAsciiCase target.name.text name).map fun target => (ancestor, target)

/-- Whether a field type may stand where another is expected. A class may also stand where one of
the classes above it is expected. Each name is looked up in the namespace it is written in. -/
def acceptsType (hierarchy : Hierarchy) (registry : Registry) (child : ValueType)
    (childNamespace : Option String) (base : ValueType) (baseNamespace : Option String) : Bool :=
  child.assignableTo base ||
    match child, base with
    | .custom childName, .custom baseName =>
      match registry.class? childName childNamespace, registry.class? baseName baseNamespace with
      | some childClass, some baseClass =>
        childClass.key = baseClass.key ||
          (hierarchy.ancestors childClass.key).any fun ancestor => ancestor.key = baseClass.key
      | _, _ => false
    | _, _ => false

/-- Compares a field with the inherited one. -/
def checkField (hierarchy : Hierarchy) (registry : Registry) (decl ancestor : Declaration ClassDecl)
    (child base : Field) : List Finding :=
  if hierarchy.acceptsType registry child.type decl.namespaceKey base.type
      ancestor.namespaceKey then []
  else
    [.of (.fieldTypeDiffers decl.fullName ancestor.fullName child.name.text child.type.text
      base.type.text) decl.file child.name.range]

/-- Compares a method with the inherited one. A constructor need not say that it replaces
another. -/
def checkMethod (decl ancestor : Declaration ClassDecl) (child base : Method) : List Finding :=
  (if child.isOverride || Text.sameIgnoringAsciiCase child.name.text "new" then []
    else [.of (.missingOverride ancestor.fullName) decl.file child.name.range])
  ++ (if (Member.method child).access = (Member.method base).access then []
    else
      [.of (.accessDiffers child.name.text decl.fullName (Member.method child).access.word
        ancestor.fullName (Member.method base).access.word) decl.file child.name.range])

/-- Compares a member with the inherited one. -/
def checkOverride (hierarchy : Hierarchy) (registry : Registry)
    (decl ancestor : Declaration ClassDecl) (child base : Member) : List Finding :=
  match child, base with
  | .field child, .field base => hierarchy.checkField registry decl ancestor child base
  | .method child, .method base => checkMethod decl ancestor child base
  | _, _ =>
    [.of (.memberKindDiffers child.kindWord base.kindWord ancestor.fullName) decl.file
      child.name.range]

/-- Checks one member that is no duplicate. -/
def checkMember (hierarchy : Hierarchy) (registry : Registry) (key : String)
    (decl : Declaration ClassDecl) (target : Member) : List Finding :=
  match hierarchy.inherited? key target.name.text with
  | some (ancestor, base) => hierarchy.checkOverride registry decl ancestor target base
  | none => []

/-- Checks members one after the other. `seen` holds the names that are taken, in lower case. -/
def checkMembersAfter (hierarchy : Hierarchy) (registry : Registry) (key : String)
    (decl : Declaration ClassDecl) (seen : List String) : List Member → List Finding
  | [] => []
  | target :: rest =>
    if seen.contains target.name.lower then
      .of (.duplicateIdentifier target.name.text) decl.file target.name.range ::
        hierarchy.checkMembersAfter registry key decl seen rest
    else
      hierarchy.checkMember registry key decl target ++
        hierarchy.checkMembersAfter registry key decl (target.name.lower :: seen) rest

/-- Checks the members of every class. -/
def checkMembers (hierarchy : Hierarchy) (registry : Registry) : List Finding :=
  hierarchy.classes.entries.flatMap fun (key, decl) =>
    hierarchy.checkMembersAfter registry key decl [] decl.node.members

end Hierarchy

end ScopeCheck
