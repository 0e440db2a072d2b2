import Pagewright.Text.Basic

/-! # `Text.Units`: texts as UTF-16 units

Conditions measure and order texts by 16-bit units, in which a character beyond the first 65536 counts
as two.
-/

namespace Pagewright.Text

/-- The UTF-16 units of a character. -/
def charUnits (c : Char) : List Nat :=
  let n := c.toNat
  if n < 0x10000 then [n]
  else [0xD800 + (n - 0x10000) / 0x400, 0xDC00 + (n - 0x10000) % 0x400]

/-- The UTF-16 units of a text. -/
def units (t : Text) : List Nat := t.flatMap charUnits

/-- The order of lists of numbers by the first place where they differ. -/
def compareUnits : List Nat → List Nat → Ordering
  | [], [] => .eq
  | [], _ :: _ => .lt
  | _ :: _, [] => .gt
  | a :: s, b :: t =>
    match Ord.compare a b with
    | .eq => compareUnits s t
    | o => o

end Pagewright.Text
