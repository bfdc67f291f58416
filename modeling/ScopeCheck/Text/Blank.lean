/-!
# White space

The characters with the Unicode property `White_Space`, and cutting them off the ends of a text.
-/

namespace ScopeCheck.Text

/-- Whether a character is white space. -/
def isBlank (c : Char) : Bool :=
  let code := c.toNat
  (0x9 ≤ code && code ≤ 0xD) || code == 0x20 || code == 0x85 || code == 0xA0 || code == 0x1680
    || (0x2000 ≤ code && code ≤ 0x200A) || code == 0x2028 || code == 0x2029 || code == 0x202F
    || code == 0x205F || code == 0x3000

/-- A list of characters without the white space at its end. -/
def dropBlanksEnd (text : List Char) : List Char :=
  (text.reverse.dropWhile isBlank).reverse

/-- A text without the white space at either end. -/
def trim (text : String) : String :=
  String.ofList (dropBlanksEnd (text.toList.dropWhile isBlank))

end ScopeCheck.Text
