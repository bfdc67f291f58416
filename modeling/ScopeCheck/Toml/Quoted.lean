import ScopeCheck.Toml.Scalar

/-!
# Strings

A basic string stands in double quotes and has escapes; a literal string stands in single quotes
and has none. Three quotes open a string that may run over several lines: a line break right after
them is dropped, and one or two quotes may stand anywhere inside, also right before the end.
-/

namespace ScopeCheck.Toml

/-- Whether a character may stand in comments and strings: a tab, or no control character. -/
def isPlain (c : Char) : Bool := c = '\t' || 0x20 ≤ c.toNat && c.toNat ≠ 0x7F

/-- Whether a character is blank within a line. -/
def isGap (c : Char) : Bool := c = ' ' || c = '\t'

/-- Whether a text starts with a line break. -/
def startsLine : List Char → Bool
  | '\n' :: _ => true
  | '\r' :: '\n' :: _ => true
  | _ => false

/-- A text without a line break at its start. -/
def dropLineBreak : List Char → List Char
  | '\n' :: rest => rest
  | '\r' :: '\n' :: rest => rest
  | text => text

/-- The character of an escape of one letter. -/
def escaped? : Char → Option Char
  | 'b' => some '\x08'
  | 't' => some '\t'
  | 'n' => some '\n'
  | 'f' => some '\x0c'
  | 'r' => some '\r'
  | '"' => some '"'
  | '\\' => some '\\'
  | _ => none

/-- The character with a code in hexadecimal digits. -/
def ofCode? (digits : List Char) : Option Char :=
  (ofDigits? 16 digits).bind fun code =>
    if code < 0xD800 || 0xDFFF < code && code < 0x110000 then some (Char.ofNat code) else none

/-- What is left after three quotes that end a string: up to two more belong to it. -/
def closeThree (quote : Char) : List Char → List Char × List Char
  | a :: b :: rest =>
    if a = quote && b = quote then ([quote, quote], rest)
    else if a = quote then ([quote], b :: rest)
    else ([], a :: b :: rest)
  | [a] => if a = quote then ([quote], []) else ([], [a])
  | [] => ([], [])

/-- Puts a character in front of what was read. -/
def prepend (c : Char) (read : Option (List Char × List Char)) : Option (List Char × List Char) :=
  read.map fun (text, rest) => (c :: text, rest)

/-- The text of a basic string after its opening quotes, and what is left after it. A backslash at
the end of a line skips (`skipping`) to the next character that is not blank. -/
def basicText (manyLines skipping : Bool) : List Char → Option (List Char × List Char)
  | [] => none
  | '"' :: rest =>
    if manyLines then
      match rest with
      | '"' :: '"' :: more => some (closeThree '"' more)
      | _ => prepend '"' (basicText manyLines false rest)
    else some ([], rest)
  | '\\' :: rest =>
    if manyLines && startsLine (rest.dropWhile isGap) then basicText manyLines true rest
    else
      match rest with
      | 'u' :: a :: b :: c :: d :: more =>
        match ofCode? [a, b, c, d] with
        | some char => prepend char (basicText manyLines false more)
        | none => none
      | 'U' :: a :: b :: c :: d :: e :: f :: g :: h :: more =>
        match ofCode? [a, b, c, d, e, f, g, h] with
        | some char => prepend char (basicText manyLines false more)
        | none => none
      | letter :: more =>
        match escaped? letter with
        | some char => prepend char (basicText manyLines false more)
        | none => none
      | [] => none
  | '\r' :: '\n' :: rest =>
    if !manyLines then none
    else if skipping then basicText manyLines true rest
    else prepend '\n' (basicText manyLines false rest)
  | '\n' :: rest =>
    if !manyLines then none
    else if skipping then basicText manyLines true rest
    else prepend '\n' (basicText manyLines false rest)
  | c :: rest =>
    if skipping && isGap c then basicText manyLines true rest
    else if isPlain c then prepend c (basicText manyLines false rest)
    else none

/-- The text of a literal string after its opening quotes, and what is left after it. -/
def literalText (manyLines : Bool) : List Char → Option (List Char × List Char)
  | [] => none
  | '\'' :: rest =>
    if manyLines then
      match rest with
      | '\'' :: '\'' :: more => some (closeThree '\'' more)
      | _ => prepend '\'' (literalText manyLines rest)
    else some ([], rest)
  | '\r' :: '\n' :: rest => if manyLines then prepend '\n' (literalText manyLines rest) else none
  | '\n' :: rest => if manyLines then prepend '\n' (literalText manyLines rest) else none
  | c :: rest => if isPlain c then prepend c (literalText manyLines rest) else none

/-- A string on one line, with what is left after it. -/
def quotedLine : List Char → Option (String × List Char)
  | '"' :: rest => (basicText false false rest).map fun (text, rest) => (String.ofList text, rest)
  | '\'' :: rest => (literalText false rest).map fun (text, rest) => (String.ofList text, rest)
  | _ => none

/-- A string on one or many lines, with what is left after it. -/
def quoted : List Char → Option (String × List Char)
  | '"' :: '"' :: '"' :: rest =>
    (basicText true false (dropLineBreak rest)).map fun (text, rest) => (String.ofList text, rest)
  | '\'' :: '\'' :: '\'' :: rest =>
    (literalText true (dropLineBreak rest)).map fun (text, rest) => (String.ofList text, rest)
  | text => quotedLine text

end ScopeCheck.Toml
