import Pagewright.Text.Basic

/-! # `Toml.Scalar`: texts, numbers and times in TOML

A text is written in double quotes with escapes or in single quotes without; in three quotes it may go over
several lines. A word that is no text is a truth value, a number or a time; of times and of numbers with a
fraction only the form is checked, since nothing in a configuration has such a value.
-/

namespace Pagewright.Toml

/-! ## Characters -/

/-- Is the character a blank within a line? -/
def isBlank (c : Char) : Bool := c = ' ' || c = '\t'

/-- May the character stand in a text or a comment as it is? -/
def isPlain (c : Char) : Bool := c = '\t' || 32 ≤ c.toNat && c.toNat ≠ 127

/-- A text without the blanks at its start. -/
def skipBlanks (t : Text) : Text := t.dropWhile isBlank

/-- What follows a line break. -/
def afterBreak? : Text → Option Text
  | '\n' :: r => some r
  | '\r' :: '\n' :: r => some r
  | _ => none

/-! ## Texts -/

/-- The character with a number that is written in hexadecimal. -/
def charOfHex? (digits : Text) : Option Char :=
  match Text.natOfDigits? 16 digits with
  | some n => if n.isValidChar then some (Char.ofNat n) else none
  | none => none

/-- The character that a letter behind a backslash stands for. -/
def escape? (c : Char) : Option Char :=
  if c = 'b' then some '\x08'
  else if c = 't' then some '\t'
  else if c = 'n' then some '\n'
  else if c = 'f' then some '\x0c'
  else if c = 'r' then some '\r'
  else if c = 'e' then some '\x1b'
  else if c = '"' || c = '\\' then some c
  else none

/-- An escape, read from behind its backslash: its character, and how many characters it takes. -/
def readEscape? : Text → Option (Char × Nat)
  | 'x' :: a :: b :: _ => (charOfHex? [a, b]).map (·, 3)
  | 'u' :: a :: b :: c :: d :: _ => (charOfHex? [a, b, c, d]).map (·, 5)
  | 'U' :: a :: b :: c :: d :: e :: f :: g :: h :: _ =>
    (charOfHex? [a, b, c, d, e, f, g, h]).map (·, 9)
  | c :: _ => (escape? c).map (·, 1)
  | [] => none

/-- Puts a character in front of what was read. -/
def pushRead (c : Char) : Option (Text × Text) → Option (Text × Text) :=
  Option.map fun (read, rest) => (c :: read, rest)

/-- A text in double quotes, read from behind the first one, and what follows it. So many characters of it
belong to an escape that was read already. -/
def basicText? : Nat → Text → Option (Text × Text)
  | _, [] => none
  | n + 1, _ :: r => basicText? n r
  | 0, c :: r =>
    if c = '"' then some ([], r)
    else if c = '\\' then
      match readEscape? r with
      | some (read, n) => pushRead read (basicText? n r)
      | none => none
    else if isPlain c then pushRead c (basicText? 0 r)
    else none

/-- A text in single quotes, read from behind the first one, and what follows it. -/
def literalText? : Text → Option (Text × Text)
  | [] => none
  | c :: r =>
    if c = '\'' then some ([], r) else if isPlain c then pushRead c (literalText? r) else none

/-- The end of a text on several lines: up to two quotes before the closing three belong to it. -/
def textEnd? (quote : Char) (t : Text) : Option (Text × Text) :=
  let n := (t.takeWhile (· = quote)).length
  if 3 ≤ n then some (List.replicate (min n 5 - 3) quote, t.drop (min n 5)) else none

/-- Where a text on several lines is read. -/
inductive TextPlace
  | within
  /-- Behind a backslash at the end of a line, where blanks and line breaks do not count. -/
  | skipping
  /-- Within an escape that was read already. -/
  | escaped (n : Nat)
deriving DecidableEq, Inhabited

/-- A text in three double quotes, and what follows it. -/
def longBasicText? : TextPlace → Text → Option (Text × Text)
  | _, [] => none
  | .escaped (n + 1), _ :: r => longBasicText? (.escaped n) r
  | place, c :: r =>
    if place = .skipping && (isBlank c || c = '\n' || c = '\r' && r.head? = some '\n') then
      longBasicText? .skipping r
    else match textEnd? '"' (c :: r) with
      | some found => some found
      | none =>
        if c = '\\' then
          if (afterBreak? (skipBlanks r)).isSome then longBasicText? .skipping r
          else match readEscape? r with
            | some (read, n) => pushRead read (longBasicText? (.escaped n) r)
            | none => none
        else if c = '\r' && r.head? = some '\n' then longBasicText? .within r
        else if isPlain c || c = '\n' then pushRead c (longBasicText? .within r)
        else none

/-- A text in three single quotes, and what follows it. -/
def longLiteralText? : Text → Option (Text × Text)
  | [] => none
  | c :: r =>
    match textEnd? '\'' (c :: r) with
    | some found => some found
    | none =>
      if c = '\r' && r.head? = some '\n' then longLiteralText? r
      else if isPlain c || c = '\n' then pushRead c (longLiteralText? r)
      else none

/-- A text without the line break at its start. -/
def dropFirstBreak (t : Text) : Text := (afterBreak? t).getD t

/-- A text in quotes of any kind, and what follows it. -/
def text? : Text → Option (Text × Text)
  | '"' :: '"' :: '"' :: r => longBasicText? .within (dropFirstBreak r)
  | '\'' :: '\'' :: '\'' :: r => longLiteralText? (dropFirstBreak r)
  | '"' :: r => basicText? 0 r
  | '\'' :: r => literalText? r
  | _ => none

/-! ## Numbers -/

/-- Digits of a base, where underscores between them do not count. -/
def digits? (base : Nat) (t : Text) : Option Text :=
  let groups := Text.split '_' t
  let isGroup := fun (g : Text) => !g.isEmpty && g.all fun c => ((Text.digitValue? c).getD base) < base
  if groups.all isGroup then some groups.flatten else none

/-- The digits of a number without needless zeros at its start. -/
def decimalDigits? (t : Text) : Option Text :=
  match digits? 10 t with
  | some digits => if digits.head? = some '0' && digits ≠ ['0'] then none else some digits
  | none => none

/-- The sign of a word, and the rest of it. -/
def sign : Text → Bool × Text
  | '+' :: r => (false, r)
  | '-' :: r => (true, r)
  | t => (false, t)

/-- The prefixes of numbers that are not decimal, with their bases. -/
def bases : List (Text × Nat) := [("0x".toList, 16), ("0o".toList, 8), ("0b".toList, 2)]

/-- The whole number that a word is, of at most 128 bits. -/
def integer? (t : Text) : Option Int :=
  let based := bases.findSome? fun (mark, base) =>
    (Text.after? mark t).bind fun r => (digits? base r).bind fun d => (Text.natOfDigits? base d).map Int.ofNat
  let (negative, r) := sign t
  let decimal := (decimalDigits? r).bind fun d => (Text.natOfDigits? 10 d).map fun n =>
    if negative then -Int.ofNat n else Int.ofNat n
  match based.or decimal with
  | some n => if -(Nat.pow 2 127 : Int) ≤ n && n < Nat.pow 2 128 then some n else none
  | none => none

/-- Is the word an exponent, read from behind its letter? -/
def isExponent (t : Text) : Bool := (digits? 10 (sign t).2).isSome

/-- Is the word a number with a fraction or an exponent, or none at all? -/
def isReal (t : Text) : Bool :=
  let r := (sign t).2
  let whole := r.takeWhile fun c => Text.isDigit c || c = '_'
  let special := r = "inf".toList || r = "nan".toList
  let ordinary := (decimalDigits? whole).isSome &&
    match r.drop whole.length with
    | '.' :: rest =>
      let fraction := rest.takeWhile fun c => Text.isDigit c || c = '_'
      (digits? 10 fraction).isSome &&
        match rest.drop fraction.length with
        | [] => true
        | e :: exponent => (e = 'e' || e = 'E') && isExponent exponent
    | e :: exponent => (e = 'e' || e = 'E') && isExponent exponent
    | [] => false
  special || ordinary

/-! ## Times -/

/-- The number that two digits are, if it lies between two others. -/
def twoDigits? (least most : Nat) (t : Text) : Bool :=
  match t with
  | [_, _] =>
    match Text.natOfDigits? 10 t with
    | some n => least ≤ n && n ≤ most
    | none => false
  | _ => false

/-- The number of days of a month. -/
def daysOfMonth (year month : Nat) : Nat :=
  if month = 2 then (if year % 4 = 0 && (year % 100 ≠ 0 || year % 400 = 0) then 29 else 28)
  else if month ∈ [4, 6, 9, 11] then 30 else 31

/-- Is the text a date? -/
def isDate (t : Text) : Bool :=
  match Text.split '-' t with
  | [year, month, day] =>
    match year.length, Text.natOfDigits? 10 year, Text.natOfDigits? 10 month with
    | 4, some y, some m => twoDigits? 1 12 month && twoDigits? 1 (daysOfMonth y m) day
    | _, _, _ => false
  | _ => false

/-- Is the text a time of day, in which the seconds may be left out? -/
def isTimeOfDay (t : Text) : Bool :=
  let isSecond := fun (s : Text) =>
    match Text.split '.' s with
    | [whole] => twoDigits? 0 60 whole
    | [whole, fraction] => twoDigits? 0 60 whole && !fraction.isEmpty && fraction.all Text.isDigit
    | _ => false
  match Text.split ':' t with
  | [hour, minute] => twoDigits? 0 23 hour && twoDigits? 0 59 minute
  | [hour, minute, second] => twoDigits? 0 23 hour && twoDigits? 0 59 minute && isSecond second
  | _ => false

/-- Is the text the distance of a time from universal time? -/
def isOffset (t : Text) : Bool :=
  match t with
  | [c] => c = 'Z' || c = 'z'
  | c :: r =>
    (c = '+' || c = '-') &&
      match Text.split ':' r with
      | [hour, minute] => twoDigits? 0 23 hour && twoDigits? 0 59 minute
      | _ => false
  | [] => true

/-- Is the word a date, a time of day or both? -/
def isTime (t : Text) : Bool :=
  isTimeOfDay t || isDate t ||
    match t.drop 10 with
    | c :: r =>
      let time := r.takeWhile fun c => Text.isDigit c || c = ':' || c = '.'
      (c = 'T' || c = 't' || c = ' ') && isDate (t.take 10) && isTimeOfDay time &&
        isOffset (r.drop time.length)
    | [] => false

/-- May the character stand in a number or a time? -/
def isWordChar (c : Char) : Bool := c.isAlphanum || c ∈ "+-._:".toList

/-- The word at the start of a text, and what follows it. A date and a time of day behind a blank are one
word. -/
def word (t : Text) : Text × Text :=
  let first := t.takeWhile isWordChar
  match t.drop first.length with
  | ' ' :: r =>
    let second := r.takeWhile isWordChar
    if isDate first && (second.head?.map Text.isDigit).getD false then
      (first ++ ' ' :: second, r.drop second.length)
    else (first, ' ' :: r)
  | rest => (first, rest)

end Pagewright.Toml
