/-!
# Ranges of code points

A property of characters is kept as the ranges of code points that have it, in ascending order.
-/

namespace ScopeCheck.Text

/-- Whether a code point lies in one of the ranges, ends included. -/
def inRanges (ranges : List (Nat × Nat)) (code : Nat) : Bool :=
  ranges.any fun range => range.1 ≤ code && code ≤ range.2

end ScopeCheck.Text
