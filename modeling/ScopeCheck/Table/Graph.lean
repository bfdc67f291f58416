import ScopeCheck.Keyed
import ScopeCheck.Table.Basic
import ScopeCheck.Trail

/-!
# Tables that refer to each other

`Tables ρ` holds the tables that exist, each under its reference. A name is looked up in a table
first, then in its siblings, then in its parent, the parent of that, and so on. A reference to a
table that does not exist counts for nothing. The way up ends at the first table met twice, so a
lookup ends on any collection of tables, however they refer to each other.
-/

namespace ScopeCheck

/-- The tables that exist, under their references. -/
abbrev Tables (ρ : Type) := Keyed ρ (SymbolTable ρ)

/-- What is said of a table whose way up runs in a circle. -/
def cyclicParentsWarning (tableName : String) : String :=
  s!"symbol table `{tableName}` has a cyclic parent chain"

namespace Tables

variable {ρ : Type} [DecidableEq ρ]

/-- The bindings of a name, in lower case, that one table contributes: its own, or else those of
its first sibling that exists and has any. A table is no sibling of itself. -/
def contribution (tables : Tables ρ) (ref : ρ) (key : String) : List Binding :=
  match tables.get? ref with
  | none => []
  | some table =>
    if table.own key ≠ [] then table.own key
    else
      (table.siblings.findSome? fun sibling =>
        if sibling = ref then none
        else
          match tables.get? sibling with
          | none => none
          | some other => if other.own key = [] then none else some (other.own key)).getD []

/-- What the top of the stack of parents of a table refers to. -/
def topParent (tables : Tables ρ) (ref : ρ) : Option ρ :=
  match tables.get? ref with
  | none => none
  | some table => table.parents.head?.join

/-- The table that is asked after this one, if it exists. -/
def parentOf (tables : Tables ρ) (ref : ρ) : Option ρ :=
  (tables.topParent ref).filter tables.contains

/-- A table and those above it, in the order in which they are asked for a name. -/
def lineage (tables : Tables ρ) (ref : ρ) : List ρ :=
  ref :: Trail.after tables.topParent tables.keys ref

/-- Whether the way up from a table leads back to a table on it. -/
def isCyclicFrom (tables : Tables ρ) (ref : ρ) : Bool :=
  match Trail.ending tables.topParent tables.keys ref with
  | .again _ => true
  | .stop | .outside _ => false

/-- The first contribution of some tables that is not empty. -/
def firstContribution (tables : Tables ρ) (refs : List ρ) (key : String) :
    Option (List Binding) :=
  refs.findSome? fun ref =>
    if tables.contribution ref key = [] then none else some (tables.contribution ref key)

/-- The bindings of a name as seen from a table, without those above it. -/
def lookupHere (tables : Tables ρ) (ref : ρ) (name : String) : Option (List Binding) :=
  tables.firstContribution [ref] (Text.lower name)

/-- The bindings of a name as seen from a table. -/
def lookup (tables : Tables ρ) (ref : ρ) (name : String) : Option (List Binding) :=
  tables.firstContribution (tables.lineage ref) (Text.lower name)

/-- What is said of a lookup: that it came up empty on a way that runs in a circle. -/
def lookupWarning? (tables : Tables ρ) (ref : ρ) (name : String) : Option String :=
  match tables.get? ref with
  | none => none
  | some table =>
    if (tables.lookup ref name).isNone && tables.isCyclicFrom ref then
      some (cyclicParentsWarning table.name)
    else none

/-- Drops a sibling of a table, and every sibling that does not exist. -/
def removeSibling (tables : Tables ρ) (ref sibling : ρ) : Tables ρ :=
  tables.adjust ref fun table =>
    { table with
      siblings := table.siblings.filter fun other => tables.contains other && other ≠ sibling }

/-- Adds the listed bindings of one table to another. A table is not added to itself. -/
def merge (tables : Tables ρ) (ref other : ρ) : Tables ρ :=
  if ref = other then tables
  else
    match tables.get? other with
    | none => tables
    | some source => tables.adjust ref fun table => table.absorb source

end Tables

end ScopeCheck
