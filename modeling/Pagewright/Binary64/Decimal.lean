import Pagewright.Binary64.Basic
import Pagewright.Text.Basic

/-! # `Binary64.Decimal`: numbers as decimal texts

Reading takes a decimal text to the nearest number (`parse?`). Writing starts from the fewest digits
that read back as the number, and of those the nearest to it (`shortest`); `plainText` writes them
without an exponent, `scientificText` with one outside a range of magnitudes.
-/

namespace Pagewright.Binary64

/-! ## Reading -/

/-- The value of a row of digits. -/
def digitsValue (ds : Text) : Nat := ds.foldl (fun n c => n * 10 + (c.toNat - 48)) 0

/-- An exponent as written, kept within bounds that no significand can make up for. -/
def exponentValue (negative : Bool) (ds : Text) : Int :=
  let n := min (digitsValue ds) 1000000
  if negative then -n else n

/-- An optional sign in front of a text. -/
def sign (t : Text) : Bool × Text :=
  match t with
  | '-' :: r => (true, r)
  | '+' :: r => (false, r)
  | _ => (false, t)

/-- The exponent part of a decimal text up to its end, zero when there is none. -/
def exponentPart? : Text → Option Int
  | [] => some 0
  | c :: r =>
    if c = 'e' || c = 'E' then
      let (negative, ds) := sign r
      if ds.isEmpty || !ds.all Text.isDigit then none else some (exponentValue negative ds)
    else none

/-- A number written as digits, a point and an exponent, where all but one digit may be missing; or
the words for infinity and for no number, in any case. -/
def parse? (t : Text) : Option Binary64 :=
  let (negative, body) := sign t
  let whole := body.takeWhile Text.isDigit
  let rest := body.dropWhile Text.isDigit
  let (fraction, rest) := match rest with
    | '.' :: r => (r.takeWhile Text.isDigit, r.dropWhile Text.isDigit)
    | _ => ([], rest)
  if whole.isEmpty && fraction.isEmpty then
    if Text.sameIgnoringAsciiCase body "inf".toList ||
        Text.sameIgnoringAsciiCase body "infinity".toList then some (.infinite negative)
    else if Text.sameIgnoringAsciiCase body "nan".toList then some .nan
    else none
  else (exponentPart? rest).map fun e =>
    ofDecimal negative (digitsValue (whole ++ fraction)) (e - fraction.length)

/-! ## The shortest digits -/

/-- Is `num / den` at least `10 ^ e`? -/
def reachesPower (num den : Nat) (e : Int) : Bool :=
  if e ≥ 0 then den * powerOfTen e.toNat ≤ num else den ≤ num * powerOfTen (-e).toNat

/-- The exponent of the leading decimal digit of a positive quotient. -/
def leadingExponent (num den : Nat) : Int :=
  -- 30103 / 100000 is a little more than the logarithm of 2 to the base 10; the guess is off by two at most
  let guess : Int := ((num.log2 : Int) - den.log2) * 30103 / 100000
  if reachesPower num den (guess + 2) then guess + 2
  else if reachesPower num den (guess + 1) then guess + 1
  else if reachesPower num den guess then guess
  else guess - 1

/-- The better of the two neighbours of a finite number on the grid of multiples of `10 ^ k`, if one
of them reads back as the number: the nearer one, or the even one when both are equally near. -/
def onGrid? (significand exponent : Nat) (k : Int) : Option Nat :=
  let num := significand * powerOfTwo exponent * (if k ≥ 0 then 1 else powerOfTen (-k).toNat)
  let den := powerOfTwo 1074 * (if k ≥ 0 then powerOfTen k.toNat else 1)
  let low := num / den
  let rest := num % den
  let readsBack (d : Nat) : Bool := ofDecimal false d k == .finite false significand exponent
  let lowFirst := 2 * rest < den || (2 * rest == den && low % 2 == 0)
  let first := if lowFirst then low else low + 1
  let second := if lowFirst then low + 1 else low
  if readsBack first then some first
  else if readsBack second then some second
  else none

/-- The exact digits of a finite number: units are written with 1074 places. -/
def expansion (significand exponent : Nat) : Nat × Int :=
  (significand * powerOfTwo exponent * powerOfFive 1074, -1074)

/-- Tries grids of one digit, two digits and so on. -/
def searchGrids (significand exponent : Nat) (k : Int) : Nat → Nat × Int
  | 0 => expansion significand exponent
  | n + 1 =>
    match onGrid? significand exponent k with
    | some d => (d, k)
    | none => searchGrids significand exponent (k - 1) n

/-- Takes the zeros at the end of a row of digits into the exponent. -/
def dropZeros (fuel d : Nat) (k : Int) : Nat × Int :=
  match fuel with
  | 0 => (d, k)
  | fuel + 1 => if d % 10 = 0 then dropZeros fuel (d / 10) (k + 1) else (d, k)

/-- The digits and the exponent of the shortest decimal number that reads back as a positive finite
number. Seventeen digits are always enough; the last resort is the exact expansion. -/
def shortest (significand exponent : Nat) : Nat × Int :=
  let start := leadingExponent (significand * powerOfTwo exponent) (powerOfTwo 1074)
  let found := searchGrids significand exponent start 17
  dropZeros 800 found.1 found.2

/-! ## Writing -/

/-- Digits with a point so many places from their end, zeros filled in where there are none. -/
def withPoint (ds : Text) (places : Nat) : Text :=
  if ds.length ≤ places then
    "0.".toList ++ List.replicate (places - ds.length) '0' ++ ds
  else ds.take (ds.length - places) ++ '.' :: ds.drop (ds.length - places)

/-- A positive decimal number without an exponent. -/
def positional (d : Nat) (k : Int) : Text :=
  let ds := Text.ofNat d
  if k ≥ 0 then ds ++ List.replicate k.toNat '0' else withPoint ds (-k).toNat

/-- A minus sign for a negative number. -/
def signText (negative : Bool) : Text := if negative then ['-'] else []

/-- The shortest digits, never with an exponent; whole numbers have no point. -/
def plainText : Binary64 → Text
  | nan => "NaN".toList
  | infinite s => signText s ++ "inf".toList
  | finite s m e =>
    signText s ++ (if m = 0 then ['0'] else positional (shortest m e).1 (shortest m e).2)

/-- A positive decimal number as one digit before the point, the others behind it, and an exponent. -/
def scientific (ds : Text) (e : Int) : Text :=
  let mantissa := match ds with
    | c :: d :: r => c :: '.' :: d :: r
    | _ => ds
  mantissa ++ 'e' :: (if e < 0 then '-' else '+') :: Text.ofNat e.natAbs

/-- The shortest digits, always with a point or an exponent: positional when the leading digit stands
for a power of ten from -5 to 15, scientific otherwise. -/
def scientificText : Binary64 → Text
  | finite s m e =>
    signText s ++
      if m = 0 then "0.0".toList
      else
        let (d, k) := shortest m e
        let ds := Text.ofNat d
        let leading := k + (ds.length : Int) - 1
        if -5 ≤ leading && leading ≤ 15 then
          positional d k ++ (if k ≥ 0 then ".0".toList else [])
        else scientific ds leading
  | x => plainText x

end Pagewright.Binary64
