/-! # `Binary64`: floating-point numbers of 64 bits

A finite number is a sign, a significand and an exponent; its value is the significand times
`2 ^ exponent` in units of `2 ^ -1074`, the least positive number of the format. So every finite value
is an integer number of units, comparing is comparing integers (`position?`), and the one operation
that rounds is `ofUnits`, which takes a quotient of natural numbers, in units, to the nearest number
of the format, a tie to the even significand.
-/

namespace Pagewright

/-- A floating-point number of the 64-bit binary format. -/
inductive Binary64
  | nan
  | infinite (negative : Bool)
  | finite (negative : Bool) (significand exponent : Nat)
deriving DecidableEq, Inhabited

namespace Binary64

/-- A power of two. -/
def powerOfTwo (n : Nat) : Nat := Nat.pow 2 n

/-- A power of five. -/
def powerOfFive (n : Nat) : Nat := Nat.pow 5 n

/-- A power of ten. -/
def powerOfTen (n : Nat) : Nat := Nat.pow 10 n

/-- The greatest exponent of a finite number, in units of `2 ^ -1074`. -/
def maxExponent : Nat := 2045

/-- Zero. -/
def zero : Binary64 := .finite false 0 0

/-! ## Rounding -/

/-- The quotient rounded to the nearest natural number, a tie to the even one. -/
def roundedQuotient (num den : Nat) : Nat :=
  let q := num / den
  let r := num % den
  if den < 2 * r || (2 * r == den && q % 2 == 1) then q + 1 else q

/-- The number nearest to a quotient in units of `2 ^ -1074`, with a sign. -/
def ofUnits (negative : Bool) (units den : Nat) : Binary64 :=
  -- 53 bits are kept, and all of them where the quotient has fewer
  let exponent := (units / den).log2 - 52
  let significand := roundedQuotient units (den * powerOfTwo exponent)
  let (significand, exponent) :=
    -- rounding up may need one bit more
    if significand = powerOfTwo 53 then (powerOfTwo 52, exponent + 1) else (significand, exponent)
  if exponent ≤ maxExponent then .finite negative significand exponent else .infinite negative

/-- The number nearest to a quotient of natural numbers, with a sign. -/
def ofRatio (negative : Bool) (num den : Nat) : Binary64 :=
  ofUnits negative (num * powerOfTwo 1074) den

/-- The number nearest to an integer. -/
def ofInt (i : Int) : Binary64 := ofRatio (decide (i < 0)) i.natAbs 1

/-- The number nearest to `digits * 10 ^ exponent`, with a sign. -/
def ofDecimal (negative : Bool) (digits : Nat) (exponent : Int) : Binary64 :=
  if digits = 0 then .finite negative 0 0
  else
    let magnitude := exponent + (digits.log2 / 3 : Nat)
    -- beyond these bounds the answer is settled without large powers
    if exponent > 400 then .infinite negative
    else if magnitude < -400 then .finite negative 0 0
    else if exponent ≥ 0 then ofRatio negative (digits * powerOfTen exponent.toNat) 1
    else ofRatio negative digits (powerOfTen (-exponent).toNat)

/-! ## Arithmetic -/

/-- The number with the other sign. -/
def neg : Binary64 → Binary64
  | nan => nan
  | infinite s => infinite (!s)
  | finite s m e => finite (!s) m e

/-- Product and quotient with a positive finite number, each rounded once. -/
def scale (x : Binary64) (num den : Nat) : Binary64 :=
  match x with
  | nan => nan
  | infinite s => infinite s
  | finite s m e => if m = 0 then x else ofRatio s (m * powerOfTwo e * num) (powerOfTwo 1074 * den)

/-- Is the number neither infinite nor undefined? -/
def isFinite : Binary64 → Bool
  | finite .. => true
  | _ => false

/-- Is the number a zero, of either sign? -/
def isZero : Binary64 → Bool
  | finite _ m _ => m == 0
  | _ => false

/-! ## Order -/

/-- Where a number lies on the line, in units of `2 ^ -1074`; the infinities lie beyond all finite
numbers, and what is not a number lies nowhere. -/
def position? : Binary64 → Option Int
  | nan => none
  | infinite s => some (if s then -(powerOfTwo 2100 : Int) else powerOfTwo 2100)
  | finite s m e => some (if s then -(m * powerOfTwo e : Nat) else (m * powerOfTwo e : Nat))

/-- The order of two numbers, if both are numbers; zeros of different sign are equal. -/
def compare? (x y : Binary64) : Option Ordering := do
  let a ← x.position?
  let b ← y.position?
  return compare a b

/-- Equality of numbers: zeros of different sign are equal, and what is not a number equals nothing. -/
def equals (x y : Binary64) : Bool := x.compare? y == some .eq

end Binary64

end Pagewright
