/-! # `Text`: characters in a row

All documents, names and messages of the library are lists of characters, so that every scanner is
a recursion on its input and hands back the characters it has not read. Offsets are counted in
UTF-8 bytes (`Text.size`); an offset that falls inside a character names no position
(`Text.fromOffset?`).
-/

namespace Pagewright

/-- A text is the list of its characters. -/
abbrev Text := List Char

namespace Text

instance : LawfulBEq Text := inferInstance

/-! ## Offsets -/

/-- Length of a text in UTF-8 bytes. -/
def size : Text → Nat
  | [] => 0
  | c :: r => c.utf8Size + size r

@[simp] theorem size_nil : size [] = 0 := rfl

@[simp] theorem size_cons (c : Char) (t : Text) : size (c :: t) = c.utf8Size + size t := rfl

@[simp] theorem size_append (s t : Text) : size (s ++ t) = size s + size t := by
  induction s with
  | nil => simp
  | cons c s ih => simp [ih, Nat.add_assoc]

/-- What follows the first `n` bytes, if `n` is the offset of a character or of the end. -/
def fromOffset? : Text → Nat → Option Text
  | t, 0 => some t
  | [], _ + 1 => none
  | c :: r, n + 1 => if c.utf8Size ≤ n + 1 then fromOffset? r (n + 1 - c.utf8Size) else none

/-- The part of `t` that was read when `rest` is what is left of it. -/
def consumed (t rest : Text) : Text := t.take (t.length - rest.length)

/-! ## Blanks -/

/-- White space is what the Unicode property White_Space says it is. -/
def isBlank (c : Char) : Bool :=
  let n := c.toNat
  (9 ≤ n && n ≤ 13) || n == 32 || n == 0x85 || n == 0xA0 || n == 0x1680 ||
    (0x2000 ≤ n && n ≤ 0x200A) || n == 0x2028 || n == 0x2029 || n == 0x202F || n == 0x205F ||
    n == 0x3000

/-- A text without the white space at its start. -/
def trimStart (t : Text) : Text := t.dropWhile isBlank

/-- A text without the white space at its end. -/
def trimEnd (t : Text) : Text := (t.reverse.dropWhile isBlank).reverse

/-- A text without the white space at its two ends. -/
def trim (t : Text) : Text := trimEnd (trimStart t)

theorem length_dropWhile_le (p : Char → Bool) (t : Text) : (t.dropWhile p).length ≤ t.length :=
  (List.dropWhile_suffix p).length_le

theorem length_trimStart_le (t : Text) : (trimStart t).length ≤ t.length :=
  length_dropWhile_le _ t

/-! ## Literals -/

/-- What follows the literal `p` at the start of a text. -/
def after? : Text → Text → Option Text
  | [], t => some t
  | _ :: _, [] => none
  | p :: ps, c :: r => if p = c then after? ps r else none

/-- Does the text begin with the literal `p`? -/
def startsWith (p t : Text) : Bool := (after? p t).isSome

/-- Does the text end with the literal `p`? -/
def endsWith (p t : Text) : Bool := startsWith p.reverse t.reverse

/-- Does the literal `p` occur in the text? -/
def contains (p : Text) : Text → Bool
  | [] => p.isEmpty
  | c :: r => startsWith p (c :: r) || contains p r

/-- The text around the first occurrence of the literal `p`. -/
def splitFirst? (p : Text) : Text → Option (Text × Text)
  | [] => if p.isEmpty then some ([], []) else none
  | c :: r =>
    match after? p (c :: r) with
    | some rest => some ([], rest)
    | none => (splitFirst? p r).map fun (before, rest) => (c :: before, rest)

/-- The text with the first occurrence of the literal `p` replaced. -/
def replaceFirst (p out t : Text) : Text :=
  match splitFirst? p t with
  | some (before, rest) => before ++ out ++ rest
  | none => t

/-- The parts between the occurrences of a separator; a text without any is its only part. -/
def split (sep : Char) : Text → List Text
  | [] => [[]]
  | c :: r =>
    if c = sep then [] :: split sep r
    else match split sep r with
      | [] => [[c]]
      | p :: ps => (c :: p) :: ps

/-- The parts written one after the other with a separator between them. -/
def join (sep : Text) : List Text → Text
  | [] => []
  | [p] => p
  | p :: q :: ps => p ++ sep ++ join sep (q :: ps)

/-- The text around the first occurrence of a separator. -/
def splitOnce? (sep : Char) : Text → Option (Text × Text)
  | [] => none
  | c :: r =>
    if c = sep then some ([], r)
    else (splitOnce? sep r).map fun (before, rest) => (c :: before, rest)

theorem length_le_of_after? {p t rest : Text} (h : after? p t = some rest) :
    rest.length ≤ t.length := by
  induction p generalizing t with
  | nil => simp [after?] at h; simp [h]
  | cons a p ih =>
    cases t with
    | nil => simp [after?] at h
    | cons c r =>
      simp only [after?] at h
      split at h
      · exact Nat.le_succ_of_le (ih h)
      · simp at h

/-! ## Substitution -/

/-- Replaces what `step` recognises, from left to right; what it puts in is not read again. -/
def substitute (step : Text → Option (Text × Text)) : Text → Text
  | [] => []
  | c :: r =>
    match step (c :: r) with
    | some (out, rest) =>
      if rest.length ≤ r.length then out ++ substitute step rest else c :: substitute step r
    | none => c :: substitute step r
termination_by t => t.length

/-- Like `substitute`, where finding the replacement can fail: the first failure is the answer. -/
def substituteM {ε : Type} (step : Text → Option (Except ε Text × Text)) : Text → Except ε Text
  | [] => .ok []
  | c :: r =>
    match step (c :: r) with
    | some (out, rest) =>
      if rest.length ≤ r.length then do
        let head ← out
        let tail ← substituteM step rest
        return head ++ tail
      else (substituteM step r).map (c :: ·)
    | none => (substituteM step r).map (c :: ·)
termination_by t => t.length

/-- The text with every occurrence of a literal replaced, from left to right. -/
def replaceAll (p out : Text) (t : Text) : Text :=
  substitute (fun s => (after? p s).map fun rest => (out, rest)) t

/-! ## Order and case -/

/-- The order of texts by code points. -/
def compare : Text → Text → Ordering
  | [], [] => .eq
  | [], _ :: _ => .lt
  | _ :: _, [] => .gt
  | a :: s, b :: t =>
    match Ord.compare a.toNat b.toNat with
    | .eq => compare s t
    | o => o

/-- Lower case for the letters A to Z only. -/
def asciiLower (c : Char) : Char :=
  if 65 ≤ c.toNat && c.toNat ≤ 90 then Char.ofNat (c.toNat + 32) else c

/-- Equality of texts where the case of the letters A to Z does not count. -/
def sameIgnoringAsciiCase (s t : Text) : Bool := s.map asciiLower == t.map asciiLower

/-! ## Numbers in texts -/

/-- Is the character one of the digits 0 to 9? -/
def isDigit (c : Char) : Bool := 48 ≤ c.toNat && c.toNat ≤ 57

/-- The value of a digit in any base up to 36, either case. -/
def digitValue? (c : Char) : Option Nat :=
  let n := c.toNat
  if 48 ≤ n && n ≤ 57 then some (n - 48)
  else if 97 ≤ n && n ≤ 122 then some (n - 87)
  else if 65 ≤ n && n ≤ 90 then some (n - 55)
  else none

/-- The number written with digits of a base; a text without digits is none. -/
def natOfDigits? (base : Nat) : Text → Option Nat
  | [] => none
  | t => t.foldl (fun acc c => do
      let n ← acc
      let d ← digitValue? c
      if d < base then some (n * base + d) else none) (some 0)

/-- The decimal text of a natural number. -/
def ofNat (n : Nat) : Text := Nat.toDigits 10 n

/-- The decimal text of an integer. -/
def ofInt : Int → Text
  | .ofNat n => ofNat n
  | .negSucc n => '-' :: ofNat (n + 1)

/-- The greatest number that a 64-bit word holds. -/
def wordMax : Nat := 0xFFFFFFFFFFFFFFFF

/-- A count or an index as users write it: digits, a plus sign in front allowed, up to `wordMax`. -/
def index? (t : Text) : Option Nat :=
  let digits := match t with
    | '+' :: r => r
    | _ => t
  match natOfDigits? 10 digits with
  | some n => if n ≤ wordMax then some n else none
  | none => none

end Text

end Pagewright
