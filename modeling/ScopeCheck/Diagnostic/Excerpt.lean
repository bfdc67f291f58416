import ScopeCheck.SourceText
import ScopeCheck.Text.Split

/-!
# Excerpts of a text

The lines of a text around a place, and how each of them lies to the place. A line takes the
bytes of its characters and of the line break that ends it. What follows the last line break is
a line only if it has characters, so a place behind the last line break lies in no line; nor
does an empty place at the end of a text whose last line has no break.
-/

namespace ScopeCheck

/-- A line of a text. -/
structure TextLine where
  /-- The number of the line, counted from one. -/
  number : Nat
  /-- The offset of its first byte. -/
  offset : Nat
  /-- The offset behind its last byte, which is that of its line break if it has one. -/
  stop : Nat
  /-- Its characters, without the line break. -/
  text : List Char
deriving DecidableEq, Repr

namespace TextLine

/-- The lines made of the pieces between line breaks, with the number and offset of the first. -/
def ofPieces (number offset : Nat) : List (List Char) → List TextLine
  | [] => []
  | [last] => if last.isEmpty then [] else [⟨number, offset, offset + byteLength last, last⟩]
  | piece :: next :: rest =>
    let stop := offset + byteLength piece + 1
    ⟨number, offset, stop, piece⟩ :: ofPieces (number + 1) stop (next :: rest)

/-- The lines of a text. -/
def all (text : String) : List TextLine :=
  ofPieces 1 0 (Text.splitChars '\n' text.toList)

/-- Whether a place lies in the line. An empty place lies where its next byte does. -/
def holds (line : TextLine) (place : Span) : Bool :=
  line.offset ≤ place.offset && place.offset + max place.length 1 ≤ line.stop

/-- Whether a part of a place lies in the line. -/
def meets (line : TextLine) (place : Span) : Bool :=
  place.offset < line.stop && line.offset < place.offset + max place.length 1

/-- The number of characters before a byte of the line. The line break is one more character. -/
def columnOf (bytes : Nat) : List Char → Nat
  | [] => min bytes 1
  | c :: rest => if bytes = 0 then 0 else columnOf (bytes - c.utf8Size) rest + 1

/-- The number of characters of the line before an offset. -/
def column (line : TextLine) (offset : Nat) : Nat :=
  columnOf (offset - line.offset) line.text

/-- The lines around a place that starts after `before` line breaks: the line before, the lines
of the place itself, and the line after. A line is passed if it ends with the last byte of the
place, or with the byte before an empty place, or sooner; the first line that is not passed is
the last one of the place. -/
def around (text : String) (before : Nat) (place : Span) : List TextLine :=
  let lines := (all text).filter (before ≤ ·.number)
  let passed (line : TextLine) : Bool := line.stop ≤ place.offset + place.length - 1 + 1
  lines.takeWhile passed ++ (lines.dropWhile passed).take 2

end TextLine

end ScopeCheck
