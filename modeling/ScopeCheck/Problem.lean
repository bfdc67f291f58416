import ScopeCheck.Diagnostic.Basic

/-!
# The catalogue of problems

Every kind of problem that the checks can report, with its number, its wording, its identifier,
its severity and, for a few, advice. Users filter and override by number, so numbers are fixed.
-/

namespace ScopeCheck

/-- A problem found in a script. -/
inductive Problem where
  /-- A name is not declared, or not in the namespace that was looked into. -/
  | cannotFindName (name : String) (insideOf : Option String)
  /-- An enum has no such value. -/
  | unknownEnumValue (name enumName : String)
  /-- Something that does not exist at run time is used as a value. -/
  | notAVariable (kind name : String)
  /-- A function is called with a number of arguments that it does not take. -/
  | argumentCount (expected : String) (actual : Nat)
  /-- An object is made of something that is not a class. -/
  | notConstructable (name : String)
  /-- An object is made of something that is not declared. -/
  | classNotFound (name scope : String)
  /-- The type of a result is not declared. -/
  | invalidReturnType (typeName : String)
  /-- The type of a parameter is not declared. -/
  | invalidParameterType (param typeName : String)
  /-- The type of a field is not declared. -/
  | typeNotFound (typeName : String)
  /-- A class has been declared before. -/
  | duplicateClass (scope name : String)
  /-- A class in a namespace has the name of a class outside of all namespaces. -/
  | namespacedClassSharesName (name : String)
  /-- Classes extend each other in a circle. -/
  | circularReference (path : String)
  /-- A class has two members of one name. -/
  | duplicateIdentifier (name : String)
  /-- A member is a field where the inherited one is a method, or the reverse. -/
  | memberKindDiffers (memberKind ancestorMemberKind ancestorClass : String)
  /-- A field has a type that the inherited field does not accept. -/
  | fieldTypeDiffers (childClass baseClass field childType baseType : String)
  /-- A method replaces an inherited one without saying so. -/
  | missingOverride (ancestorClass : String)
  /-- A method has another access level than the inherited one. -/
  | accessDiffers (member childClass childAccess ancestorClass ancestorAccess : String)
  /-- A constructor does not call that of the parent class. -/
  | missingSuperCall
  /-- A constructor uses its object before it calls that of the parent class. -/
  | receiverBeforeSuperCall
  /-- There is no such node type. -/
  | unknownNode (name : String)
  /-- There is no such object of the platform. -/
  | unknownObject (name : String)
  /-- An object is made with a number of arguments that it does not take. -/
  | objectArgumentCount (component expected : String) (actual : Nat)
  /-- An object of the platform has gone out of use. -/
  | deprecatedObject (name note : String)
  /-- An enum has been declared before. -/
  | duplicateEnum (scope name : String)
  /-- A value of an enum has another type than the first one. -/
  | enumValueType (expected : String)
  /-- A value of an enum is missing where values cannot be counted up. -/
  | enumValueRequired (expected : String)
deriving DecidableEq, Repr

namespace Problem

/-- The number of the kind of problem. -/
def code : Problem → Nat
  | cannotFindName .. => 1001
  | unknownEnumValue .. => 1002
  | notAVariable .. => 1003
  | argumentCount .. => 1004
  | notConstructable .. => 1005
  | classNotFound .. => 1006
  | invalidReturnType .. => 1007
  | invalidParameterType .. => 1008
  | typeNotFound .. => 1009
  | duplicateClass .. => 1010
  | namespacedClassSharesName .. => 1011
  | circularReference .. => 1012
  | duplicateIdentifier .. => 1013
  | memberKindDiffers .. => 1014
  | fieldTypeDiffers .. => 1015
  | missingOverride .. => 1016
  | accessDiffers .. => 1017
  | missingSuperCall => 1018
  | receiverBeforeSuperCall => 1019
  | unknownNode .. => 1020
  | unknownObject .. => 1021
  | objectArgumentCount .. => 1022
  | deprecatedObject .. => 1023
  | duplicateEnum .. => 1024
  | enumValueType .. => 1025
  | enumValueRequired .. => 1026

/-- The wording of a problem. -/
def message : Problem → String
  | cannotFindName name none => s!"Cannot find name '{name}'"
  | cannotFindName name (some insideOf) =>
    s!"Cannot find name '{name}' in namespace '{insideOf}'"
  | unknownEnumValue name enumName => s!"Property '{name}' does not exist on enum '{enumName}'"
  | notAVariable kind name => s!"{kind} '{name}' cannot be used as a variable"
  | argumentCount expected actual => s!"Expected {expected} arguments, but got {actual}"
  | notConstructable name => s!"Cannot use the 'new' keyword here for '{name}'"
  | classNotFound name scope =>
    s!"Class '{name}' could not be found when this file is included in scope '{scope}'"
  | invalidReturnType typeName => s!"Function return type '{typeName}' is invalid"
  | invalidParameterType param typeName =>
    s!"Parameter '{param}' is of invalid type '{typeName}'"
  | typeNotFound typeName => s!"Cannot find type with name '{typeName}'"
  | duplicateClass scope name => s!"Scope '{scope}' already contains a class with name '{name}'"
  | namespacedClassSharesName name =>
    s!"Namespaced class '{name}' cannot have the same name as a non-namespaced class"
  | circularReference path => s!"Circular reference detected: {path}"
  | duplicateIdentifier name => s!"Duplicate identifier '{name}'"
  | memberKindDiffers memberKind ancestorMemberKind ancestorClass =>
    s!"Class member is a {memberKind} here but a {ancestorMemberKind} " ++
      s!"in ancestor class '{ancestorClass}'"
  | fieldTypeDiffers childClass baseClass field childType baseType =>
    s!"Field '{field}' in class '{childClass}' is not assignable to the same field in base " ++
      s!"class '{baseClass}': type '{childType}' is not assignable to type '{baseType}'"
  | missingOverride ancestorClass =>
    s!"Method has no override keyword but is declared in ancestor class '{ancestorClass}'"
  | accessDiffers member childClass childAccess ancestorClass ancestorAccess =>
    s!"Access modifier mismatch: '{member}' is {childAccess} in type '{childClass}' " ++
      s!"but {ancestorAccess} in type '{ancestorClass}'"
  | missingSuperCall =>
    "Missing call to 'super()' in the constructor of a class that extends another class"
  | receiverBeforeSuperCall => "Illegal use of 'm' before calling 'super()'"
  | unknownNode name => s!"Unknown roSGNode '{name}'"
  | unknownObject name => s!"Unknown BrightScript component '{name}'"
  | objectArgumentCount component expected actual =>
    s!"For {component}, expected {expected} arguments, but got {actual}"
  | deprecatedObject name note => s!"{name} has been deprecated: {note}"
  | duplicateEnum scope name => s!"Scope '{scope}' already contains an enum with name '{name}'"
  | enumValueType expected => s!"Enum value must be type '{expected}'"
  | enumValueRequired expected => s!"Value is required for {expected} enum"

/-- The identifier of the kind of problem. -/
def tag : Problem → String
  | cannotFindName .. => "bsc_resolve::cannot_find_name"
  | unknownEnumValue .. => "bsc_resolve::unknown_enum_value"
  | notAVariable .. => "bsc_resolve::item_cannot_be_used_as_variable"
  | argumentCount .. => "bsc_resolve::mismatch_argument_count"
  | notConstructable .. => "bsc_resolve::expression_is_not_constructable"
  | classNotFound .. => "bsc_resolve::class_could_not_be_found"
  | invalidReturnType .. => "bsc_resolve::invalid_function_return_type"
  | invalidParameterType .. => "bsc_resolve::function_parameter_type_is_invalid"
  | typeNotFound .. => "bsc_resolve::cannot_find_type"
  | duplicateClass .. => "bsc_resolve::duplicate_class_declaration"
  | namespacedClassSharesName .. =>
    "bsc_resolve::namespaced_class_cannot_share_name_with_non_namespaced_class"
  | circularReference .. => "bsc_resolve::circular_reference_detected"
  | duplicateIdentifier .. => "bsc_resolve::duplicate_identifier"
  | memberKindDiffers .. =>
    "bsc_resolve::class_child_member_different_member_type_than_ancestor"
  | fieldTypeDiffers .. => "bsc_resolve::child_field_type_not_assignable_to_base_property"
  | missingOverride .. => "bsc_resolve::missing_override_keyword"
  | accessDiffers .. => "bsc_resolve::mismatched_overridden_member_visibility"
  | missingSuperCall => "bsc_resolve::class_constructor_missing_super_call"
  | receiverBeforeSuperCall =>
    "bsc_resolve::class_constructor_illegal_use_of_m_before_super_call"
  | unknownNode .. => "bsc_resolve::unknown_ro_sg_node"
  | unknownObject .. => "bsc_resolve::unknown_brightscript_component"
  | objectArgumentCount .. => "bsc_resolve::mismatch_create_object_argument_count"
  | deprecatedObject .. => "bsc_resolve::deprecated_brightscript_component"
  | duplicateEnum .. => "bsc_resolve::duplicate_enum_declaration"
  | enumValueType .. => "bsc_resolve::enum_value_must_be_type"
  | enumValueRequired .. => "bsc_resolve::enum_value_is_required"

/-- Advice on a problem, where there is any. -/
def help : Problem → Option String
  | notAVariable .. =>
    some ("Namespaces only exist at compile time; " ++
      "reference a member of the namespace instead")
  | missingOverride .. => some "Add `override` to the method declaration"
  | _ => none

/-- How serious a problem is. What has gone out of use still works. -/
def severity : Problem → Severity
  | deprecatedObject .. => .warning
  | _ => .error

/-- The diagnostic of a problem at a place. -/
def located (problem : Problem) (file : String) (range : Range) : Diagnostic :=
  { code := problem.code
    message := problem.message
    range
    file
    severity := problem.severity
    related := [] }

end Problem

/-- How findings of several scopes are brought together. -/
inductive Route where
  /-- Listed once, whichever file or scope it is found in. -/
  | once
  /-- Listed once for each file, with every scope that found it. -/
  | perFile
deriving DecidableEq, Repr

/-- A diagnostic as the examination of one scope found it. -/
structure Finding where
  /-- The diagnostic. -/
  diagnostic : Diagnostic
  /-- How it is brought together with those of other scopes. -/
  route : Route
deriving DecidableEq, Repr

/-- The finding of a problem at a place, listed once for each file. -/
def Finding.of (problem : Problem) (file : String) (range : Range) : Finding :=
  ⟨problem.located file range, .perFile⟩

/-- The finding of a problem at a place that another place helps to explain. -/
def Finding.withRelated (finding : Finding) (message file : String) (range : Range) : Finding :=
  { finding with diagnostic := finding.diagnostic.withRelated ⟨message, ⟨file, range⟩⟩ }

end ScopeCheck
