/-!
# Splitting a text at a character

`split` cuts a text at every occurrence of one character. Pieces may be empty, and there is
always at least one.
-/

namespace ScopeCheck.Text

/-- The pieces of a list of characters between the occurrences of one character. -/
def splitChars (separator : Char) : List Char → List (List Char)
  | [] => [[]]
  | c :: rest =>
    if c = separator then [] :: splitChars separator rest
    else
      match splitChars separator rest with
      | [] => [[c]]
      | piece :: pieces => (c :: piece) :: pieces

/-- The pieces of a text between the occurrences of one character. -/
def split (separator : Char) (text : String) : List String :=
  (splitChars separator text.toList).map String.ofList

/-- Cuts a text at the last occurrence of a character, which is left out. -/
def splitAtLast? (separator : Char) (text : String) : Option (String × String) :=
  match (split separator text).reverse with
  | last :: before :: more =>
    some ((String.singleton separator).intercalate (before :: more).reverse, last)
  | _ => none

end ScopeCheck.Text
