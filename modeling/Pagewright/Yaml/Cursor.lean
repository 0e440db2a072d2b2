import Pagewright.Text.Basic

/-! # `Yaml.Cursor`: a place in a YAML text

A cursor is what is left of a text, with the line, the column and the number of characters that have been
read. YAML has five line breaks; a carriage return with a line feed is one.
-/

namespace Pagewright.Yaml

/-- A place in a text. -/
structure Cursor where
  rest : Text
  line : Nat
  column : Nat
  index : Nat
deriving Inhabited

/-- Is the character a space or a tab? -/
def isBlank (c : Char) : Bool := c = ' ' || c = '\t'

/-- Does the character end a line? -/
def isBreak (c : Char) : Bool :=
  c = '\n' || c = '\r' || c.toNat = 0x85 || c.toNat = 0x2028 || c.toNat = 0x2029

/-- Is the text at its end, or is its next character blank or a line break? -/
def atGap : Text → Bool
  | [] => true
  | c :: _ => isBlank c || isBreak c

/-- Can the character stand in the name of an anchor, a directive or a tag handle? -/
def isWordChar (c : Char) : Bool :=
  let n := c.toNat
  Text.isDigit c || (65 ≤ n && n ≤ 90) || (97 ≤ n && n ≤ 122) || c = '_' || c = '-'

namespace Cursor

/-- The start of a text. -/
def ofText (t : Text) : Cursor := ⟨t, 0, 0, 0⟩

/-- The place after `n` more characters, none of them a line break. -/
def skip (c : Cursor) (n : Nat) : Cursor := ⟨c.rest.drop n, c.line, c.column + n, c.index + n⟩

/-- Is the cursor at a blank? -/
def atBlank (c : Cursor) : Bool :=
  match c.rest with
  | x :: _ => isBlank x
  | [] => false

/-- Is the cursor at a line break? -/
def atBreak (c : Cursor) : Bool :=
  match c.rest with
  | x :: _ => isBreak x
  | [] => false

/-- Is the cursor at a character? -/
def isAt (c : Cursor) (x : Char) : Bool := c.rest.head? == some x

/-- Reads a line break: the text that it stands for and the start of the next line. -/
def readBreak (c : Cursor) : Text × Cursor :=
  match c.rest with
  | '\r' :: '\n' :: r => (['\n'], ⟨r, c.line + 1, 0, c.index + 2⟩)
  | x :: r =>
    if isBreak x then
      (if x.toNat = 0x2028 || x.toNat = 0x2029 then [x] else ['\n'], ⟨r, c.line + 1, 0, c.index + 1⟩)
    else ([], c)
  | [] => ([], c)

/-- Is there a line of three dashes or three points, or the beginning of one, at the cursor? -/
def atDocumentMark (c : Cursor) (mark : Char) : Bool :=
  c.column == 0 &&
    match c.rest with
    | x :: y :: z :: r => x = mark && y = mark && z = mark && atGap r
    | _ => false

/-- Does a document begin or end at the cursor? -/
def atDocumentBoundary (c : Cursor) : Bool := c.atDocumentMark '-' || c.atDocumentMark '.'

/-- Skips to the end of the line. -/
def skipToBreak (c : Cursor) : Cursor :=
  c.skip (c.rest.takeWhile fun x => !isBreak x).length

/-- Skips spaces and tabs. -/
def skipBlanks (c : Cursor) : Cursor := c.skip (c.rest.takeWhile isBlank).length

end Cursor

end Pagewright.Yaml
