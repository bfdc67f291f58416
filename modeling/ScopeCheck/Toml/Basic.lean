/-!
# TOML values and tables

The values of a configuration file, and how the lines of a file build its tables. A table may be
opened by a header, by a dotted key, or only by the longer header of a table inside it; which of
these decides what may still be added to it. No key is given twice.
-/

namespace ScopeCheck.Toml

/-- How a table came about. -/
inductive TableForm where
  /-- Written in braces, and complete. -/
  | inline
  /-- Under a header of its own. -/
  | headed
  /-- By a dotted key. -/
  | dotted
  /-- By the header of a table inside it. -/
  | implied
deriving DecidableEq, Repr

/-- A value. The amounts of floating-point numbers and dates are not kept. -/
inductive Value where
  | string (text : String)
  | integer (value : Int)
  | float
  | boolean (value : Bool)
  | date
  | array (items : List Value)
  /-- Tables under repeated headers in double brackets. -/
  | tables (elements : List (List (String × Value)))
  | table (form : TableForm) (entries : List (String × Value))

/-- The entries of a table, oldest first. -/
abbrev Entries := List (String × Value)

/-- A key with the names of the tables that lead to it. -/
structure Key where
  /-- The names of the tables, outermost first. -/
  outer : List String
  /-- The name inside the last table. -/
  last : String
deriving DecidableEq, Repr

namespace Entries

/-- The value under a name. -/
def get? (entries : Entries) (name : String) : Option Value :=
  (entries.find? fun entry => entry.1 = name).map Prod.snd

/-- The entries without a name. -/
def erase (entries : Entries) (name : String) : Entries :=
  entries.filter fun entry => entry.1 ≠ name

/-- Replaces the value under a name, or adds it at the end. -/
def put (entries : Entries) (name : String) (value : Value) : Entries :=
  match entries.get? name with
  | some _ => entries.map fun entry => if entry.1 = name then (name, value) else entry
  | none => entries ++ [(name, value)]

/-- Changes the table at the end of a way of names. Missing tables are opened on the way; of
repeated tables the last one is meant. A dotted key does not lead through a table with a header
of its own, and nothing leads through other values. -/
def alter (byDottedKey : Bool) (change : TableForm → Entries → Option Entries)
    (form : TableForm) : List String → Entries → Option Entries
  | [], entries => change form entries
  | name :: rest, entries =>
    match entries.get? name with
    | none =>
      let opened := if byDottedKey then .dotted else .implied
      (alter byDottedKey change opened rest []).map fun inner =>
        entries.put name (.table opened inner)
    | some (.table found inner) =>
      if found = .inline || byDottedKey && found = .headed then none
      else
        (alter byDottedKey change found rest inner).map fun inner =>
          entries.put name (.table found inner)
    | some (.tables elements) =>
      match elements.getLast? with
      | none => none
      | some inner =>
        (alter byDottedKey change .headed rest inner).map fun inner =>
          entries.put name (.tables (elements.dropLast ++ [inner]))
    | some _ => none

/-- Adds a value under a key. A dotted key adds only to tables that dotted keys have opened. -/
def insert (form : TableForm) (entries : Entries) (key : Key) (value : Value) : Option Entries :=
  alter true
    (fun found inner =>
      if !key.outer.isEmpty && found ≠ .dotted then none
      else if (inner.get? key.last).isSome then none
      else some (inner.put key.last value))
    form key.outer entries

/-- Opens a table by its header. A table that longer headers have opened may still get its own. -/
def openTable (entries : Entries) (key : Key) : Option Entries :=
  alter false
    (fun _ inner =>
      match inner.get? key.last with
      | none => some (inner.put key.last (.table .headed []))
      | some (.table .implied found) =>
        some ((inner.erase key.last).put key.last (.table .headed found))
      | some _ => none)
    .headed key.outer entries

/-- Opens one more of the tables under repeated headers. -/
def openElement (entries : Entries) (key : Key) : Option Entries :=
  alter false
    (fun _ inner =>
      match inner.get? key.last with
      | none => some (inner.put key.last (.tables [[]]))
      | some (.tables elements) => some (inner.put key.last (.tables (elements ++ [[]])))
      | some _ => none)
    .headed key.outer entries

end Entries

/-- A line of a file. -/
inductive Line where
  /-- Blank, or with a comment only. -/
  | blank
  /-- A value under a key. -/
  | entry (key : Key) (value : Value)
  /-- The header of a table. -/
  | header (key : Key)
  /-- The header of one of several tables. -/
  | element (key : Key)

/-- What the lines read so far have built. -/
structure Document where
  /-- The outermost table. -/
  root : Entries
  /-- The names that lead to the table under the last header. -/
  current : List String

namespace Document

/-- The document of no lines. -/
def empty : Document := ⟨[], []⟩

/-- Takes in one line. -/
def read (document : Document) : Line → Option Document
  | .blank => some document
  | .entry key value =>
    (Entries.alter false (fun form inner => Entries.insert form inner key value) .headed
      document.current document.root).map fun root => { document with root }
  | .header key =>
    (Entries.openTable document.root key).map fun root => ⟨root, key.outer ++ [key.last]⟩
  | .element key =>
    (Entries.openElement document.root key).map fun root => ⟨root, key.outer ++ [key.last]⟩

end Document

end ScopeCheck.Toml
