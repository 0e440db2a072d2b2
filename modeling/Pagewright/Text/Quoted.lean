import Pagewright.Text.Basic
import Pagewright.Text.Printable

/-! # `Text.Quoted`: texts in quotes for messages

Every character that cannot be shown as it is, or that would be mistaken for something else, is escaped:
quotes and backslashes by a backslash, a few control characters by a letter, all others by their code
point in braces.
-/

namespace Pagewright.Text

/-- The lower-case hexadecimal text of a number. -/
def ofNatHex (n : Nat) : Text := Nat.toDigits 16 n

/-- A character as it is shown between quotes. -/
def shownChar (c : Char) : Text :=
  if c = '\x00' then ['\\', '0']
  else if c = '\t' then ['\\', 't']
  else if c = '\r' then ['\\', 'r']
  else if c = '\n' then ['\\', 'n']
  else if c = '"' || c = '\\' then ['\\', c]
  else if isExtender c || !isPrintable c then
    ['\\', 'u', '\x7b'] ++ ofNatHex c.toNat ++ ['\x7d']
  else [c]

/-- A text in quotes, with everything escaped that needs it. -/
def shown (t : Text) : Text := '"' :: t.flatMap shownChar ++ ['"']

end Pagewright.Text
