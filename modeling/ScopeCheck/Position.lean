/-!
# Positions and ranges

A position is a line and a character in it, both counted from zero; a range runs from one
position to another. Positions are ordered by line and then by character, ranges by start and
then by end: that is the order in which diagnostics are listed.
-/

namespace ScopeCheck

/-- A place in a text, counted from zero. -/
structure Position where
  /-- The line. -/
  line : Nat
  /-- The character in the line. -/
  character : Nat
deriving DecidableEq, Repr, Inhabited

namespace Position

instance : Ord Position :=
  ⟨compareLex (compareOn Position.line) (compareOn Position.character)⟩

/-- Whether a position is at or before another. -/
def atOrBefore (left right : Position) : Bool := (compare left right).isLE

/-- The earlier of two positions. -/
def earlier (left right : Position) : Position := if left.atOrBefore right then left else right

/-- The later of two positions. -/
def later (left right : Position) : Position := if left.atOrBefore right then right else left

end Position

/-- A count from zero as it is printed, counted from one. The sum is taken in 32 bits, so that after
the greatest count comes zero. -/
def ordinal (count : Nat) : Nat := (count + 1) % 0x100000000

/-- The stretch from one position to another. -/
structure Range where
  /-- Where the range starts. -/
  start : Position
  /-- Where the range ends. -/
  stop : Position
deriving DecidableEq, Repr, Inhabited

namespace Range

instance : Ord Range :=
  ⟨compareLex (compareOn Range.start) (compareOn Range.stop)⟩

/-- The range at the very beginning, used where nothing is written in any text. -/
def zero : Range := ⟨⟨0, 0⟩, ⟨0, 0⟩⟩

/-- The range of `length` characters on one line. -/
def onLine (line character length : Nat) : Range :=
  ⟨⟨line, character⟩, ⟨line, character + length⟩⟩

/-- The smallest range that covers both. -/
def merge (left right : Range) : Range :=
  ⟨left.start.earlier right.start, left.stop.later right.stop⟩

/-- Whether a position lies in the range, both ends included. -/
def contains (range : Range) (position : Position) : Bool :=
  range.start.atOrBefore position && position.atOrBefore range.stop

/-- Whether the range starts where it ends. -/
def isEmpty (range : Range) : Bool := range.start = range.stop

/-- The range as text, `line:character-line:character`. -/
def text (range : Range) : String :=
  s!"{range.start.line}:{range.start.character}-{range.stop.line}:{range.stop.character}"

end Range

end ScopeCheck
