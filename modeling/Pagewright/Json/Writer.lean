import Pagewright.Binary64.Decimal
import Pagewright.Json.Basic

/-! # `Json.Writer`: JSON texts

`compact` writes a value without any space, `pretty` on several lines with two spaces for each level.
In strings only quotes, backslashes and control characters are escaped.
-/

namespace Pagewright

/-- The text of a number; floating-point numbers always show a point or an exponent. -/
def Number.text : Number → Text
  | .int i => Text.ofInt i
  | .real x => if x.isFinite then x.scientificText else "null".toList

namespace Json

/-! ## Strings -/

/-- The two lower-case hexadecimal digits of a number below 256. -/
def hexPair (n : Nat) : Text := [Nat.digitChar (n / 16), Nat.digitChar (n % 16)]

/-- A character as it stands between the quotes of a string. -/
def escapeChar (c : Char) : Text :=
  if c = '"' then ['\\', '"']
  else if c = '\\' then ['\\', '\\']
  else if c = '\n' then ['\\', 'n']
  else if c = '\t' then ['\\', 't']
  else if c = '\r' then ['\\', 'r']
  else if c.toNat = 8 then ['\\', 'b']
  else if c.toNat = 12 then ['\\', 'f']
  else if c.toNat < 32 then ['\\', 'u', '0', '0'] ++ hexPair c.toNat
  else [c]

/-- A text in quotes. -/
def quote (t : Text) : Text := '"' :: t.flatMap escapeChar ++ ['"']

/-! ## Compact form -/

mutual

/-- A value without spaces. -/
def compact : Json → Text
  | null => "null".toList
  | bool b => if b then "true".toList else "false".toList
  | number n => n.text
  | string t => quote t
  | array items => '[' :: compactItems items ++ [']']
  | object fields => '\x7b' :: compactFields fields ++ ['\x7d']

/-- Values with commas between them. -/
def compactItems : List Json → Text
  | [] => []
  | [v] => compact v
  | v :: w :: rest => compact v ++ ',' :: compactItems (w :: rest)

/-- Fields with commas between them. -/
def compactFields : List (Text × Json) → Text
  | [] => []
  | [(k, v)] => quote k ++ ':' :: compact v
  | (k, v) :: f :: rest => quote k ++ ':' :: compact v ++ ',' :: compactFields (f :: rest)

end

/-! ## Pretty form -/

/-- A new line that begins with the indentation of a level. -/
def newLine (level : Nat) : Text := '\n' :: List.replicate (2 * level) ' '

mutual

/-- A value on several lines; what it encloses stands one level deeper. -/
def prettyAt (level : Nat) : Json → Text
  | array [] => "[]".toList
  | object [] => ['\x7b', '\x7d']
  | array (v :: rest) => '[' :: prettyItems (level + 1) (v :: rest) ++ newLine level ++ [']']
  | object (f :: rest) =>
    '\x7b' :: prettyFields (level + 1) (f :: rest) ++ newLine level ++ ['\x7d']
  | null => "null".toList
  | bool b => if b then "true".toList else "false".toList
  | number n => n.text
  | string t => quote t

/-- Values on lines of their own. -/
def prettyItems (level : Nat) : List Json → Text
  | [] => []
  | [v] => newLine level ++ prettyAt level v
  | v :: w :: rest => newLine level ++ prettyAt level v ++ ',' :: prettyItems level (w :: rest)

/-- Fields on lines of their own. -/
def prettyFields (level : Nat) : List (Text × Json) → Text
  | [] => []
  | [(k, v)] => newLine level ++ quote k ++ ": ".toList ++ prettyAt level v
  | (k, v) :: f :: rest =>
    newLine level ++ quote k ++ ": ".toList ++ prettyAt level v ++ ',' ::
      prettyFields level (f :: rest)

end

/-- A value on several lines. -/
def pretty (v : Json) : Text := prettyAt 0 v

end Json

end Pagewright
