import ScopeCheck.Text.Extender
import ScopeCheck.Text.Unprintable

/-!
# Quoted texts

A text between double quotes, as it stands in a description of a value: quotes and backslashes
are escaped, and so is every character that a reader could not tell apart, because it has no
visible form or is drawn onto the character before it.
-/

namespace ScopeCheck.Text

/-- The digits of a number to base sixteen. -/
def hexDigits (number : Nat) : String := String.ofList (Nat.toDigits 16 number)

/-- A character as it stands between quotes. -/
def quoteChar (c : Char) : String :=
  if c = '"' then "\\\""
  else if c = '\\' then "\\\\"
  else if c = '\n' then "\\n"
  else if c = '\r' then "\\r"
  else if c = '\t' then "\\t"
  else if c.toNat = 0 then "\\0"
  else if isExtender c || isUnprintable c then
    "\\u\x7b" ++ hexDigits c.toNat ++ "\x7d"
  else String.singleton c

/-- A text between double quotes. -/
def quote (text : String) : String :=
  "\"" ++ String.join (text.toList.map quoteChar) ++ "\""

end ScopeCheck.Text
