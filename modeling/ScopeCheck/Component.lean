import ScopeCheck.Keyed
import ScopeCheck.PackagePath
import ScopeCheck.Platform.Basic
import ScopeCheck.Position
import ScopeCheck.Trail

/-!
# Components

A component is declared in a file of its own, lists its scripts and may extend another component
or a node type of the platform. Components are known by their names without regard to case.
-/

namespace ScopeCheck

/-- A component. -/
structure Component where
  /-- The name of the component. -/
  name : String
  /-- The package path of the file that declares it. -/
  xmlPath : String
  /-- Where the name stands in that file. -/
  nameRange : Range
  /-- What it extends, as written. -/
  parentName : Option String
  /-- The package paths of its scripts. -/
  scripts : List String
deriving DecidableEq, Repr

namespace Component

/-- The name in lower case. -/
def key (component : Component) : String := Text.lower component.name

/-- The key of the file that declares the component. -/
def xmlKey (component : Component) : String := pathKey component.xmlPath

/-- Whether a path is that of a script of the component. -/
def imports (component : Component) (path : String) : Bool :=
  component.scripts.any fun script => pathKey script = pathKey path

end Component

/-- The components of a program, each under its name in lower case. -/
structure Components where
  /-- The components. -/
  byName : Keyed String Component

namespace Components

/-- No components. -/
def empty : Components := ⟨.empty⟩

/-- All components, in the order in which their names were first added. -/
def list (components : Components) : List Component := components.byName.values

/-- The names of the components. -/
def names (components : Components) : List String := components.list.map Component.name

/-- The component of a name. -/
def get? (components : Components) (name : String) : Option Component :=
  components.byName.get? (Text.lower name)

/-- The component that a file declares. -/
def declaredIn? (components : Components) (xmlPath : String) : Option Component :=
  components.list.find? fun component => component.xmlKey = pathKey xmlPath

/-- Adds a component; one of the same name is replaced. -/
def add (components : Components) (component : Component) : Components :=
  ⟨components.byName.put component.key component⟩

/-- The name under which the component of a file is kept. -/
def keyDeclaredIn? (components : Components) (xmlPath : String) : Option String :=
  (components.byName.entries.find? fun entry => entry.2.xmlKey = pathKey xmlPath).map Prod.fst

/-- Removes the component that a file declares. -/
def removeDeclaredIn (components : Components) (xmlPath : String) : Components :=
  match components.keyDeclaredIn? xmlPath with
  | some key => ⟨components.byName.erase key⟩
  | none => components

/-! ## Ancestors -/

/-- What a component extends, in lower case. -/
def parentKey (components : Components) (key : String) : Option String :=
  (components.byName.get? key).bind fun component => component.parentName.map Text.lower

/-- The way up from the component of a name. -/
def trail (components : Components) (name : String) : List String × TrailEnd String :=
  Trail.follow components.parentKey components.byName.keys [Text.lower name] (Text.lower name)

/-- The components above the one of a name, nearest first. The way up ends at what is no component
and at the first component met twice. -/
def ancestors (components : Components) (name : String) : List Component :=
  (components.trail name).1.filterMap components.byName.get?

/-- What the last component on the way up extends, as written. -/
def lastParentName (components : Components) (name : String) : String :=
  let last := ((components.trail name).1.getLast?).getD (Text.lower name)
  ((components.byName.get? last).bind Component.parentName).getD ""

/-- What is said of the way up from a component: that it runs in a circle, or that it leads to
something unknown. -/
def ancestorsWarning? (components : Components) (name : String) : Option String :=
  let parent := components.lastParentName name
  match (components.trail name).2 with
  | .stop => none
  | .again _ =>
    some s!"component {name} has a circular parent chain through {parent}; truncating it"
  | .outside _ =>
    if (Platform.withNodes []).isNode parent then none
    else some s!"component {name} extends unknown component {parent}"

end Components

end ScopeCheck
