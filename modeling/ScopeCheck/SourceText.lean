import ScopeCheck.PackagePath
import ScopeCheck.Position

/-!
# Source texts and byte offsets

A source text belongs to a package path and may be unknown. Positions count characters; offsets
count the bytes of the text in UTF-8. `offsetOf` maps one to the other: a line must exist, while
a character past the end of its line counts as the end of that line.
-/

namespace ScopeCheck

/-- The text of a file, as far as it is known. -/
structure SourceText where
  /-- The package path of the file. -/
  path : String
  /-- The text, if it is known. -/
  contents : Option String
deriving DecidableEq, Repr

/-- Why a position has no offset. -/
inductive SourceError where
  /-- The text has no such line. -/
  | lineOutOfBounds (path : String) (line lineCount : Nat)
  /-- The text is not known. -/
  | missingContents (path : String)
deriving DecidableEq, Repr

namespace SourceError

/-- The wording of the error. -/
def message : SourceError → String
  | lineOutOfBounds path line lineCount =>
    s!"Line {line} is out of bounds for `{path}` ({lineCount} lines)"
  | missingContents path => s!"No source text is available for `{path}`"

/-- The identifier of the kind of error. -/
def tag : SourceError → String
  | lineOutOfBounds .. => "bsc_source::line_out_of_bounds"
  | missingContents _ => "bsc_source::missing_contents"

/-- Advice on the error, where there is any. -/
def help : SourceError → Option String
  | lineOutOfBounds .. => some "The file may have changed since the diagnostic was produced"
  | missingContents _ => none

end SourceError

/-- A stretch of the bytes of a text. -/
structure Span where
  /-- The offset of the first byte. -/
  offset : Nat
  /-- The number of bytes. -/
  length : Nat
deriving DecidableEq, Repr

/-- The number of bytes of some characters in UTF-8. -/
def byteLength : List Char → Nat
  | [] => 0
  | c :: rest => c.utf8Size + byteLength rest

/-- The characters up to the next line break. -/
def currentLine (text : List Char) : List Char := text.takeWhile (· ≠ '\n')

/-- Splits a text after the given number of line breaks; `none` if it has fewer. -/
def splitAfterLines : Nat → List Char → Option (List Char × List Char)
  | 0, text => some ([], text)
  | lines + 1, text =>
    match text.dropWhile (· ≠ '\n') with
    | [] => none
    | lineBreak :: rest =>
      (splitAfterLines lines rest).map fun (before, after) =>
        (currentLine text ++ lineBreak :: before, after)

/-- The number of lines of a text. A line break at the end starts no further line. -/
def lineCount (text : List Char) : Nat :=
  text.count '\n' + (match text.getLast? with
    | none | some '\n' => 0
    | some _ => 1)

namespace SourceText

/-- The key of the file. -/
def key (source : SourceText) : String := pathKey source.path

/-- The byte offset of a position. -/
def offsetOf (source : SourceText) (position : Position) : Except SourceError Nat :=
  match source.contents with
  | none => .error (.missingContents source.path)
  | some contents =>
    match splitAfterLines position.line contents.toList with
    | none => .error (.lineOutOfBounds source.path position.line (lineCount contents.toList))
    | some (before, after) =>
      .ok (byteLength before + byteLength ((currentLine after).take position.character))

/-- The stretch of bytes of a range. A range that ends before it starts is empty. -/
def spanOf (source : SourceText) (range : Range) : Except SourceError Span :=
  match source.offsetOf range.start with
  | .error e => .error e
  | .ok start =>
    match source.offsetOf range.stop with
    | .error e => .error e
    | .ok stop => .ok ⟨start, max stop start - start⟩

end SourceText

end ScopeCheck
