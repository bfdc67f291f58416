import ScopeCheck.Platform.Functions
import ScopeCheck.Platform.Nodes
import ScopeCheck.Platform.Objects
import ScopeCheck.Text.Lower

/-!
# The platform of a program

What scripts find without declaring it: global functions, objects for `CreateObject`, and node
types. The node types are the built-in ones and the components of the program itself. All names
are found without regard to case.
-/

namespace ScopeCheck

/-- The platform as one program sees it. -/
structure Platform where
  /-- The lower-cased names of the components of the program. -/
  customNodes : List String
deriving DecidableEq, Repr

namespace Platform

/-- The platform of a program with the given components. -/
def withNodes (names : List String) : Platform := ⟨names.map Text.lower⟩

/-- Whether a name is that of a node type. -/
def isNode (platform : Platform) (name : String) : Bool :=
  (builtinNodes.map Text.lower).contains (Text.lower name)
    || platform.customNodes.contains (Text.lower name)

end Platform

/-- The object of a name. -/
def platformObject? (name : String) : Option PlatformObject :=
  platformObjects.find? fun object => Text.lower object.name = Text.lower name

/-- The global function of a name. -/
def globalFunction? (name : String) : Option GlobalFunction :=
  globalFunctions.find? fun function => Text.lower function.name = Text.lower name

end ScopeCheck
