/-! # `Text.Ranges`: sets of characters as ascending ranges of code points -/

namespace Pagewright.Text

/-- Does a code point lie in one of the ranges, which are given in ascending order? -/
def inRanges (n : Nat) : List (Nat × Nat) → Bool
  | [] => false
  | (lo, hi) :: rest => if n < lo then false else n ≤ hi || inRanges n rest

end Pagewright.Text
