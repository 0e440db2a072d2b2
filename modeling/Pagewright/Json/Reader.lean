import Pagewright.Binary64.Decimal
import Pagewright.Json.Basic

/-! # `Json.Reader`: values of JSON texts

`parse?` reads a whole text. A number without point and exponent that fits 64 bits, signed or
unsigned, is whole; every other number is floating-point. Such a number is computed from its first
digits, as many as fit a word of 64 bits, and then multiplied or divided by a power of ten, with a
rounding in each step; a result beyond the finite numbers makes the text invalid. Objects and arrays
may be nested up to a fixed depth.
-/

namespace Pagewright.Json

/-- One more than the number of levels to which arrays and objects may be nested. -/
def maxDepth : Nat := 128

/-- JSON knows four blanks. -/
def isSpace (c : Char) : Bool := c = ' ' || c = '\n' || c = '\t' || c = '\r'

/-- A text without the blanks at its start. -/
def skipSpace (t : Text) : Text := t.dropWhile isSpace

/-! ## Strings -/

/-- The number written by four hexadecimal digits, and the rest. -/
def hexFour? : Text → Option (Nat × Text)
  | a :: b :: c :: d :: r => (Text.natOfDigits? 16 [a, b, c, d]).map fun n => (n, r)
  | _ => none

/-- The character that a single letter after a backslash stands for. -/
def shortEscape? (c : Char) : Option Char :=
  if c = '"' || c = '\\' || c = '/' then some c
  else if c = 'b' then some '\x08'
  else if c = 'f' then some '\x0c'
  else if c = 'n' then some '\n'
  else if c = 'r' then some '\r'
  else if c = 't' then some '\t'
  else none

/-- The character written by `\u` and four digits, the `\u` already read; a character beyond the
first 65536 is written by two such groups. -/
def unicodeEscape? (t : Text) : Option (Char × Text) := do
  let (n, r) ← hexFour? t
  if 0xD800 ≤ n && n < 0xDC00 then
    match r with
    | '\\' :: 'u' :: r' =>
      let (m, r'') ← hexFour? r'
      if 0xDC00 ≤ m && m < 0xE000 then
        some (Char.ofNat (0x10000 + (n - 0xD800) * 0x400 + (m - 0xDC00)), r'')
      else none
    | _ => none
  else if 0xDC00 ≤ n && n < 0xE000 then none
  else some (Char.ofNat n, r)

/-- The rest of a string up to its closing quote. -/
def stringTail? (fuel : Nat) (t : Text) : Option (Text × Text) :=
  match fuel with
  | 0 => none
  | fuel + 1 =>
    match t with
    | [] => none
    | '"' :: r => some ([], r)
    | '\\' :: 'u' :: r => do
      let (c, r) ← unicodeEscape? r
      let (s, r) ← stringTail? fuel r
      return (c :: s, r)
    | '\\' :: e :: r => do
      let c ← shortEscape? e
      let (s, r) ← stringTail? fuel r
      return (c :: s, r)
    | c :: r =>
      if c = '\\' || c.toNat < 32 then none
      else (stringTail? fuel r).map fun (s, r) => (c :: s, r)

/-! ## Numbers -/

/-- The first digits of a row that fit a word, taken onto a number, and the digits that are left. -/
def takeDigits (n : Nat) : Text → Nat × Text
  | [] => (n, [])
  | c :: r =>
    let m := n * 10 + (c.toNat - 48)
    if m ≤ Text.wordMax then takeDigits m r else (n, c :: r)

/-- The floating-point number `significand * 10 ^ exponent`, computed in two roundings or more. -/
def realOfParts? (fuel : Nat) (x : Binary64) (exponent : Int) : Option Binary64 :=
  match fuel with
  | 0 => none
  | fuel + 1 =>
    let power := min exponent.natAbs 308
    match Binary64.ofDecimal false 1 power with
    | .finite _ m e =>
      if exponent.natAbs ≤ 308 then
        if exponent ≥ 0 then
          let y := x.scale (m * Binary64.powerOfTwo e) (Binary64.powerOfTwo 1074)
          if y.isFinite then some y else none
        else some (x.scale (Binary64.powerOfTwo 1074) (m * Binary64.powerOfTwo e))
      else if x.isZero then some x
      else if exponent ≥ 0 then none
      else realOfParts? fuel (x.scale (Binary64.powerOfTwo 1074) (m * Binary64.powerOfTwo e)) (exponent + 308)
    | _ => none

/-- Largest exponent that is taken at its value. -/
def exponentMax : Nat := 0x7FFFFFFF

/-- The floating-point number with the given significand and exponent, where the text goes on with an
exponent part or not. -/
def finishReal? (significand : Nat) (exponent : Int) (t : Text) : Option (Binary64 × Text) := do
  let x := Binary64.ofInt significand
  match t with
  | e :: r =>
    if e = 'e' || e = 'E' then
      let (negative, r) := Binary64.sign r
      let ds := r.takeWhile Text.isDigit
      let r := r.dropWhile Text.isDigit
      if ds.isEmpty then none
      else
        let n := Binary64.digitsValue ds
        if exponentMax < n then
          if significand ≠ 0 && !negative then none else some (Binary64.zero, r)
        else
          let y ← realOfParts? 20 x (if negative then max (exponent - n) (-8000) else exponent + n)
          return (y, r)
    else return (← realOfParts? 20 x exponent, t)
  | [] => return (← realOfParts? 20 x exponent, t)

/-- An unsigned number; the flag says that a minus sign stood before it. -/
def unsigned? (negative : Bool) (t : Text) : Option (Number × Text) := do
  let ds := t.takeWhile Text.isDigit
  let r := t.dropWhile Text.isDigit
  let leadingZero := match ds with
    | '0' :: _ :: _ => true
    | _ => false
  if ds.isEmpty || leadingZero then none
  else
    let (n, left) := takeDigits 0 ds
    let real (x : Binary64) : Number := .real (if negative then x.neg else x)
    match r with
    | '.' :: r' =>
      let fraction := r'.takeWhile Text.isDigit
      let r := r'.dropWhile Text.isDigit
      if fraction.isEmpty then none
      else
        let (m, unread) := takeDigits n fraction
        let (x, r) ← finishReal? m (left.length - (fraction.length - unread.length : Nat)) r
        return (real x, r)
    | _ =>
      let plain := match r with
        | c :: _ => !(c = 'e' || c = 'E')
        | [] => true
      if plain && left.isEmpty && !negative then return (.int n, r)
      else if plain && left.isEmpty && n ≠ 0 && n ≤ Binary64.powerOfTwo 63 then return (.int (-(n : Int)), r)
      else
        let (x, r) ← finishReal? n left.length r
        return (real x, r)

/-- A number. -/
def number? (t : Text) : Option (Number × Text) :=
  match t with
  | '-' :: r => unsigned? true r
  | _ => unsigned? false t

/-! ## Values -/

mutual

/-- A value at the start of a text, and the rest. -/
def value? (fuel depth : Nat) (t : Text) : Option (Json × Text) :=
  match fuel with
  | 0 => none
  | fuel + 1 =>
    match skipSpace t with
    | '"' :: r => (stringTail? (r.length + 1) r).map fun (s, r) => (.string s, r)
    | '[' :: r =>
      if depth ≤ 1 then none
      else match skipSpace r with
        | ']' :: r => some (.array [], r)
        | _ => (items? fuel (depth - 1) r).map fun (vs, r) => (.array vs, r)
    | '\x7b' :: r =>
      if depth ≤ 1 then none
      else match skipSpace r with
        | '\x7d' :: r => some (.object [], r)
        | _ => (fields? fuel (depth - 1) r).map fun (fs, r) => (.object (Fields.ofList fs), r)
    | t =>
      match Text.after? "null".toList t with
      | some r => some (.null, r)
      | none =>
        match Text.after? "true".toList t with
        | some r => some (.bool true, r)
        | none =>
          match Text.after? "false".toList t with
          | some r => some (.bool false, r)
          | none => (number? t).map fun (n, r) => (.number n, r)

/-- The values of an array up to its closing bracket, at least one. -/
def items? (fuel depth : Nat) (t : Text) : Option (List Json × Text) :=
  match fuel with
  | 0 => none
  | fuel + 1 => do
    let (v, r) ← value? fuel depth t
    match skipSpace r with
    | ',' :: r =>
      let (vs, r) ← items? fuel depth r
      return (v :: vs, r)
    | ']' :: r => return ([v], r)
    | _ => none

/-- The fields of an object up to its closing brace, at least one. -/
def fields? (fuel depth : Nat) (t : Text) : Option (List (Text × Json) × Text) :=
  match fuel with
  | 0 => none
  | fuel + 1 =>
    match skipSpace t with
    | '"' :: r => do
      let (k, r) ← stringTail? (r.length + 1) r
      match skipSpace r with
      | ':' :: r =>
        let (v, r) ← value? fuel depth r
        match skipSpace r with
        | ',' :: r =>
          let (fs, r) ← fields? fuel depth r
          return ((k, v) :: fs, r)
        | '\x7d' :: r => return ([(k, v)], r)
        | _ => none
      | _ => none
    | _ => none

end

/-- The value that a text holds, if it is the text of one value. -/
def parse? (t : Text) : Option Json := do
  let (v, r) ← value? (2 * t.length + 2) maxDepth t
  if (skipSpace r).isEmpty then some v else none

end Pagewright.Json
