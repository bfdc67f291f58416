import ScopeCheck.Position
import ScopeCheck.Text.Blank
import ScopeCheck.Text.Lower

/-!
# Types of values

The types that a script can write: the built-in ones and names of its own. Type names are read
without regard to case. `assignableTo` decides which values a place of a given type accepts, as
far as it can be decided without knowing the classes.
-/

namespace ScopeCheck

/-- The type of a value. -/
inductive ValueType where
  | dynamic
  | boolean
  | integer
  | longInteger
  | float
  | double
  | string
  | object
  | void
  | invalid
  | function
  | custom (name : String)
  | uninitialized
deriving DecidableEq, Repr

namespace ValueType

/-- The built-in types that can be written, each under its name in lower case. -/
def written : List (String × ValueType) :=
  [("dynamic", dynamic), ("boolean", boolean), ("integer", integer), ("longinteger", longInteger),
   ("float", float), ("double", double), ("string", string), ("object", object), ("void", void),
   ("invalid", invalid), ("function", function)]

/-- The type of a written name. A name that is not built in is kept as written, but trimmed. -/
def ofTypeName (name : String) : ValueType :=
  (written.lookup (Text.lower (Text.trim name))).getD (custom (Text.trim name))

/-- The type as text. -/
def text : ValueType → String
  | dynamic => "dynamic"
  | boolean => "boolean"
  | integer => "integer"
  | longInteger => "longinteger"
  | float => "float"
  | double => "double"
  | string => "string"
  | object => "object"
  | void => "void"
  | invalid => "invalid"
  | function => "function"
  | custom name => name
  | uninitialized => "uninitialized"

/-- Whether the type is not built in. -/
def isCustom : ValueType → Bool
  | custom _ => true
  | _ => false

/-- Whether values of the type are numbers. -/
def isNumeric : ValueType → Bool
  | integer | longInteger | float | double => true
  | _ => false

/-- Whether a place of type `target` accepts a value of type `source`: anything goes from and to
`dynamic`, numbers widen, and an object place accepts whatever is held by reference. Two custom
types agree when their names do, up to the case of the letters A to Z. -/
def assignableTo (source target : ValueType) : Bool :=
  match source, target with
  | dynamic, _ => true
  | _, dynamic => true
  | custom left, custom right => Text.sameIgnoringAsciiCase left right
  | custom _, object => true
  | function, object => true
  | invalid, object => true
  | invalid, custom _ => true
  | integer, longInteger => true
  | integer, float => true
  | integer, double => true
  | float, double => true
  | longInteger, double => true
  | left, right => left = right

end ValueType

/-- A type as annotated in a script. -/
structure TypeNote where
  /-- The annotation as written. -/
  text : String
  /-- Where it is written. -/
  range : Range
deriving DecidableEq, Repr

/-- The type that an annotation stands for. -/
def TypeNote.type (note : TypeNote) : ValueType := .ofTypeName note.text

end ScopeCheck
