import ScopeCheck.Text.LowerTable
import ScopeCheck.Text.CaseContext

/-!
# Lower case

Names are compared in lower case, and the lower case of a text is the full one of Unicode:

* a letter with a one-character lower case moves by the table of runs;
* the capital I with dot above becomes an `i` followed by a combining dot;
* a capital sigma becomes a final sigma at the end of a word and a plain one elsewhere.

The last rule looks at the neighbours, so `lower` is not a map over characters, and lower-casing
two texts is not the same as lower-casing their concatenation.

Some comparisons fold only the letters A to Z; these use `asciiLower`.
-/

namespace ScopeCheck.Text

/-- The lower case of one character, seen on its own. -/
def lowerChar (c : Char) : List Char :=
  if c.toNat < 0x80 then [c.toLower]
  else if c.toNat = 0x130 then ['i', Char.ofNat 0x307]
  else
    match lowerRuns.find? (·.covers c.toNat) with
    | some run => [Char.ofNat (c.toNat + run.shift).toNat]
    | none => [c]

/-- Whether the first character that is not looked through is a cased letter. -/
def meetsCased (neighbours : List Char) : Bool :=
  match neighbours.dropWhile isCaseIgnorable with
  | [] => false
  | c :: _ => isCased c

/-- Lower-cases a text. `before` holds the characters already passed, nearest first. -/
def lowerChars (before : List Char) : List Char → List Char
  | [] => []
  | c :: rest =>
    let lowered :=
      if c = 'Σ' then
        if meetsCased before && !meetsCased rest then ['ς'] else ['σ']
      else lowerChar c
    lowered ++ lowerChars (c :: before) rest

/-- The lower case of a text. -/
def lower (text : String) : String :=
  String.ofList (lowerChars [] text.toList)

/-- A text with the letters A to Z in lower case and all else as it is. -/
def asciiLower (text : String) : String :=
  String.ofList (text.toList.map Char.toLower)

/-- Whether two texts differ at most in the case of the letters A to Z. -/
def sameIgnoringAsciiCase (left right : String) : Bool :=
  asciiLower left == asciiLower right

end ScopeCheck.Text
