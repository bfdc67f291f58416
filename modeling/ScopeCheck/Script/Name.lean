import ScopeCheck.Position
import ScopeCheck.Text.Blank
import ScopeCheck.Text.Lower
import ScopeCheck.Text.Split

/-!
# Identifiers and dotted names

An identifier is a word at a place. A dotted name is a list of identifiers written with dots
between them; it names a namespace, or a declaration inside namespaces. Both are compared in
lower case. Lengths and columns of identifiers are counted in bytes of UTF-8.
-/

namespace ScopeCheck

/-- A word at a place. -/
structure Ident where
  /-- The word as written. -/
  text : String
  /-- Where it is written. -/
  range : Range
deriving DecidableEq, Repr

/-- The word in lower case. -/
def Ident.lower (ident : Ident) : String := Text.lower ident.text

/-- Identifiers with dots between them. -/
structure DottedName where
  /-- The identifiers, left to right. -/
  parts : List Ident
  /-- Where the whole name is written. -/
  range : Range
deriving DecidableEq, Repr

/-- Why a text is no dotted name. -/
inductive NameError where
  /-- Between two dots, or at an end, there is nothing but white space. -/
  | emptyPart (name : String) (range : Range)
deriving DecidableEq, Repr

namespace NameError

/-- The wording of the error. -/
def message : NameError → String
  | emptyPart name range => s!"Invalid dotted name `{name}` at {range.text}"

/-- The identifier of the kind of error. -/
def tag : NameError → String
  | emptyPart .. => "bsc_syntax::invalid_name"

/-- Advice on the error. -/
def help : NameError → String
  | emptyPart .. => "Every part of a dotted name must be an identifier"

end NameError

namespace DottedName

/-- The name with the given parts, written from the first to the last of them. -/
def ofParts (parts : List Ident) : DottedName :=
  match parts.head?, parts.getLast? with
  | some first, some last => ⟨parts, first.range.merge last.range⟩
  | _, _ => ⟨parts, .zero⟩

/-- The name as text. -/
def text (name : DottedName) : String := ".".intercalate (name.parts.map Ident.text)

/-- The name in lower case. -/
def lower (name : DottedName) : String := Text.lower name.text

/-- The last part. -/
def last? (name : DottedName) : Option Ident := name.parts.getLast?

/-- Places pieces one after the other on a line, with one column for each dot. A piece is trimmed,
but it keeps the column at which its white space starts. Fails at a piece without a word. -/
def placePieces (line column : Nat) : List String → Option (List Ident)
  | [] => some []
  | piece :: rest =>
    let word := Text.trim piece
    if word.isEmpty then none
    else
      (placePieces line (column + piece.utf8ByteSize + 1) rest).map
        (⟨word, .onLine line column word.utf8ByteSize⟩ :: ·)

/-- Reads a dotted name that is written at a range. -/
def parse (text : String) (range : Range) : Except NameError DottedName :=
  match placePieces range.start.line range.start.character (Text.split '.' text) with
  | some parts => .ok ⟨parts, range⟩
  | none => .error (.emptyPart text range)

end DottedName

end ScopeCheck
