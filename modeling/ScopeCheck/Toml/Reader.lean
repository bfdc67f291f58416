import ScopeCheck.Toml.Quoted

/-!
# Reading a file

A file is read line by line. Values may nest, and keys may lead, through fewer than eighty
levels; deeper files are refused.
-/

namespace ScopeCheck.Toml

/-- Reads something from the start of a text; the rest is what is left. -/
abbrev Scan (α : Type) := List Char → Option (α × List Char)

/-- Values nest, and keys lead, through fewer levels than this. -/
def levelLimit : Nat := 80

/-- A text without the blanks at its start. -/
def skipGap (text : List Char) : List Char := text.dropWhile isGap

/-- A text without the blanks, line breaks and comments at its start. -/
def skipLines (inComment : Bool) : List Char → List Char
  | [] => []
  | '\r' :: '\n' :: rest => skipLines false rest
  | '\n' :: rest => skipLines false rest
  | c :: rest =>
    if inComment then if isPlain c then skipLines true rest else c :: rest
    else if isGap c then skipLines false rest
    else if c = '#' then skipLines true rest
    else c :: rest

/-- The text after the end of a line, before which only blanks and a comment may stand. -/
def endLine (text : List Char) : Option (List Char) :=
  let uncommented :=
    match skipGap text with
    | '#' :: rest => rest.dropWhile isPlain
    | other => other
  match uncommented with
  | [] => some []
  | '\n' :: rest => some rest
  | '\r' :: '\n' :: rest => some rest
  | _ => none

/-! ## Keys -/

/-- Whether a character may stand in a name without quotes. -/
def isBare (c : Char) : Bool := c.isAlphanum || c = '-' || c = '_'

/-- One name of a key. -/
def readName : Scan String := fun text =>
  match text with
  | '"' :: _ => quotedLine text
  | '\'' :: _ => quotedLine text
  | _ =>
    let name := text.takeWhile isBare
    if name.isEmpty then none else some (String.ofList name, text.dropWhile isBare)

/-- The names of a key, with dots between them. -/
def readNames (text : List Char) : Option (List String × List Char) :=
  match readName text with
  | none => none
  | some (name, rest) =>
    match skipGap rest with
    | '.' :: more =>
      if (skipGap more).length < text.length then
        (readNames (skipGap more)).map fun (names, rest) => (name :: names, rest)
      else none
    | _ => some ([name], rest)
termination_by text.length

/-- A key. -/
def readKey : Scan Key := fun text =>
  match readNames text with
  | none => none
  | some (names, rest) =>
    match names.getLast? with
    | none => none
    | some last => if names.length < levelLimit then some (⟨names.dropLast, last⟩, rest) else none

/-! ## Values -/

/-- A key and its value. -/
def readEntry (readItem : Scan Value) : Scan (Key × Value) := fun text =>
  match readKey text with
  | none => none
  | some (key, rest) =>
    match skipGap rest with
    | '=' :: more => (readItem (skipGap more)).map fun (value, rest) => ((key, value), rest)
    | _ => none

/-- The items of an array after its opening bracket. A comma may follow the last one. -/
def readItems (readItem : Scan Value) (text : List Char) : Option (List Value × List Char) :=
  match skipLines false text with
  | ']' :: rest => some ([], rest)
  | start =>
    match readItem start with
    | none => none
    | some (item, rest) =>
      match skipLines false rest with
      | ',' :: more =>
        if more.length < text.length then
          (readItems readItem more).map fun (items, rest) => (item :: items, rest)
        else none
      | ']' :: more => some ([item], more)
      | _ => none
termination_by text.length

/-- The entries of a table in braces, of which there is at least one. No comma follows the
last. -/
def readBraced (readItem : Scan Value) (text : List Char) :
    Option (List (Key × Value) × List Char) :=
  match readEntry readItem (skipGap text) with
  | none => none
  | some (entry, rest) =>
    match skipGap rest with
    | ',' :: more =>
      if more.length < text.length then
        (readBraced readItem more).map fun (entries, rest) => (entry :: entries, rest)
      else none
    | '\x7d' :: more => some ([entry], more)
    | _ => none
termination_by text.length

/-- A table in braces, after the opening one. -/
def readInline (readItem : Scan Value) : Scan Value := fun text =>
  match skipGap text with
  | '\x7d' :: rest => some (.table .inline [], rest)
  | start =>
    match readBraced readItem start with
    | none => none
    | some (pairs, rest) =>
      (pairs.foldlM (fun entries (key, value) => Entries.insert .inline entries key value) []).map
        fun entries => (.table .inline entries, rest)

/-- Whether a character may stand in a word. -/
def isWordChar (c : Char) : Bool := isBare c || c = '+' || c = '.' || c = ':'

/-- A value that is one word. A blank may stand between a day and a time. -/
def readScalar : Scan Value := fun text =>
  let first := text.takeWhile isWordChar
  let rest := text.drop first.length
  let word :=
    match rest with
    | ' ' :: next :: more =>
      if isDay first && next.isDigit then
        first ++ ' ' :: (next :: more).takeWhile isWordChar
      else first
    | _ => first
  (readWord? word).map fun value => (value, text.drop word.length)

/-- A value that nests at most so many levels. -/
def readValue : Nat → Scan Value
  | levels, text =>
    match text with
    | '"' :: _ => (quoted text).map fun (string, rest) => (.string string, rest)
    | '\'' :: _ => (quoted text).map fun (string, rest) => (.string string, rest)
    | '[' :: rest =>
      match levels with
      | 0 => none
      | inner + 1 =>
        (readItems (readValue inner) rest).map fun (items, rest) => (.array items, rest)
    | '\x7b' :: rest =>
      match levels with
      | 0 => none
      | inner + 1 => readInline (readValue inner) rest
    | _ => readScalar text

/-! ## Lines -/

/-- The content of a line, with what is left after it. -/
def readContent : Scan Line := fun text =>
  match text with
  | [] => some (.blank, [])
  | '#' :: _ => some (.blank, text)
  | '\n' :: _ => some (.blank, text)
  | '\r' :: _ => some (.blank, text)
  | '[' :: '[' :: rest =>
    match readKey (skipGap rest) with
    | none => none
    | some (key, rest) =>
      match skipGap rest with
      | ']' :: ']' :: rest => some (.element key, rest)
      | _ => none
  | '[' :: rest =>
    match readKey (skipGap rest) with
    | none => none
    | some (key, rest) =>
      match skipGap rest with
      | ']' :: rest => some (.header key, rest)
      | _ => none
  | _ =>
    (readEntry (readValue (levelLimit - 1)) text).map fun ((key, value), rest) =>
      (.entry key value, rest)

/-- The lines of a file. -/
def readLines (text : List Char) : Option (List Line) :=
  if text.isEmpty then some []
  else
    match readContent (skipGap text) with
    | none => none
    | some (line, rest) =>
      match endLine rest with
      | none => none
      | some more =>
        if more.length < text.length then (readLines more).map (line :: ·) else none
termination_by text.length

/-- A text without the mark of its byte order. -/
def dropByteOrderMark : List Char → List Char
  | '\ufeff' :: rest => rest
  | text => text

/-- The outermost table of a file. -/
def read? (text : String) : Option Entries :=
  match readLines (dropByteOrderMark text.toList) with
  | none => none
  | some lines => (lines.foldlM Document.read Document.empty).map Document.root

end ScopeCheck.Toml
