import Pagewright.Text.Basic

/-! # `Markdown.Line`: the lines of a document and what they can begin

A `LineCursor` walks over the blanks at the start of a line; a tab counts as blanks up to the next multiple
of four columns, and part of one may be left over. The other functions look at the rest of a line and say
which kind of block begins there: a rule, a heading, a fence of code, an item of a list, the line below a
heading, the second line of a table.
-/

namespace Pagewright.Markdown

/-! ## Lines -/

/-- A line and the line break behind it, which the last line may not have. -/
structure Line where
  text : Text
  lineBreak : Text
deriving DecidableEq, Inhabited

/-- Puts a character in front of the first line. -/
def prependChar (c : Char) : List Line → List Line
  | [] => [⟨[c], []⟩]
  | l :: rest => { l with text := c :: l.text } :: rest

/-- The lines of a document. -/
def lines : Text → List Line
  | [] => []
  | '\r' :: '\n' :: r => ⟨[], ['\r', '\n']⟩ :: lines r
  | c :: r =>
    if c = '\n' || c = '\r' then ⟨[], [c]⟩ :: lines r else prependChar c (lines r)

/-- The line break behind a line where the line is shown as it is. -/
def Line.shownBreak (l : Line) : Text := if l.lineBreak = ['\r', '\n'] then ['\n'] else l.lineBreak

/-- Is the character blank, but no line break? -/
def isSpace (c : Char) : Bool := c = ' ' || c = '\t' || c = '\x0b' || c = '\x0c'

/-- Is there nothing but blanks? -/
def isBlankText (t : Text) : Bool := t.all isSpace

/-- A text without the blanks at its end. -/
def trimSpaceEnd (t : Text) : Text := (t.reverse.dropWhile isSpace).reverse

/-! ## Columns -/

/-- A place in a line. -/
structure LineCursor where
  rest : Text
  /-- The number of characters since the last tab. -/
  width : Nat
  /-- The columns of the last tab that have not been used. -/
  pending : Nat
deriving DecidableEq, Inhabited

namespace LineCursor

/-- The start of a line. -/
def ofText (t : Text) : LineCursor := ⟨t, 0, 0⟩

/-- Takes `n` columns of blanks out of a text with no columns left over. -/
def takeFrom (n width pending : Nat) : Text → Nat × LineCursor
  | [] => (n, ⟨[], width, pending⟩)
  | c :: r =>
    if n = 0 then (0, ⟨c :: r, width, pending⟩)
    else if c = ' ' then takeFrom (n - 1) (width + 1) pending r
    else if c = '\t' then
      let columns := 4 - width % 4
      let used := min columns n
      takeFrom (n - used) 0 (columns - used) r
    else (n, ⟨c :: r, width, pending⟩)

/-- Takes up to `n` columns of blanks; how many are missing. -/
def take (c : LineCursor) (n : Nat) : Nat × LineCursor :=
  let used := min c.pending n
  takeFrom (n - used) c.width (c.pending - used) c.rest

/-- Takes up to `n` columns of blanks; how many there were. -/
def takeUpTo (c : LineCursor) (n : Nat) : Nat × LineCursor :=
  let (missing, c) := c.take n
  (n - missing, c)

/-- Is the cursor at the end of the line? -/
def atEnd (c : LineCursor) : Bool := c.rest.isEmpty

/-- What is left of the line without blanks at its start. -/
def content (c : LineCursor) : Text := c.rest.dropWhile fun x => x = ' ' || x = '\t'

/-- What is left of the line, with the columns that are left over. -/
def shown (c : LineCursor) : Text := List.replicate c.pending ' ' ++ c.rest

/-- Skips a number of characters that are no tabs. -/
def skip (c : LineCursor) (n : Nat) : LineCursor := ⟨c.rest.drop n, c.width + n, c.pending⟩

/-- Skips the mark of a quotation with the blank behind it. -/
def quoteMark? (c : LineCursor) : Option LineCursor :=
  match c.rest with
  | '>' :: _ => some ((c.skip 1).take 1).2
  | _ => none

end LineCursor

/-! ## What a line can begin -/

/-- The length of the row of a character at the start of a text. -/
def runLength (c : Char) (t : Text) : Nat := (t.takeWhile (· = c)).length

/-- Is the line a rule: three or more stars, dashes or underscores with blanks between them? -/
def isRule (t : Text) : Bool :=
  match t with
  | [] => false
  | c :: _ =>
    (c = '*' || c = '-' || c = '_') && t.all (fun x => x = c || x = ' ' || x = '\t') &&
      3 ≤ t.count c

/-- The level of a heading that begins with number signs. -/
def headingLevel? (t : Text) : Option Nat :=
  let n := runLength '#' t
  let ends := match t.drop n with
    | [] => true
    | c :: _ => isSpace c
  if 1 ≤ n && n ≤ 6 && ends then some n else none

/-- The text of such a heading: blanks around it do not count, nor does a row of number signs at its end
behind a blank. -/
def headingText (t : Text) : Text :=
  let text := (t.dropWhile (· = '#')).dropWhile isSpace
  let trimmed := (text.reverse.dropWhile (· = ' ')).reverse
  let before := (trimmed.reverse.dropWhile (· = '#')).reverse
  if before.isEmpty then []
  else if before.getLast? = some ' ' then (before.reverse.dropWhile (· = ' ')).reverse
  else trimmed

/-- The character and the length of a fence of code. A fence of backquotes has none behind it. -/
def fence? (t : Text) : Option (Char × Nat) :=
  match t with
  | c :: _ =>
    let n := runLength c t
    if (c = '`' && !(t.drop n).any (· = '`') || c = '~') && 3 ≤ n then some (c, n) else none
  | [] => none

/-- Does the line close a fence? -/
def closesFence (c : Char) (n : Nat) (t : Text) : Bool :=
  n ≤ runLength c t && (t.dropWhile (· = c)).all (· = ' ')

/-- The level of the heading that a line of equal signs or dashes makes of the text above it. -/
def underlineLevel? (t : Text) : Option Nat :=
  match t with
  | '=' :: r => if isBlankText (r.dropWhile (· = '=')) then some 1 else none
  | '-' :: r => if isBlankText (r.dropWhile (· = '-')) then some 2 else none
  | _ => none

/-! ## Items of lists -/

/-- How an item of a list is marked. -/
structure ListMarker where
  /-- The bullet, or the character behind the number. -/
  delimiter : Char
  number : Nat
deriving DecidableEq, Inhabited

/-- Is the character a bullet? -/
def isBullet (c : Char) : Bool := c = '-' || c = '+' || c = '*'

/-- The mark of an item at the start of a text, and the length of the mark. -/
def listMarker? (t : Text) : Option (ListMarker × Nat) :=
  match t with
  | [] => none
  | c :: r =>
    if isBullet c then some (⟨c, 0⟩, 1)
    else
      let digits := (c :: r).takeWhile Text.isDigit
      match (c :: r).drop digits.length, Text.natOfDigits? 10 digits with
      | d :: _, some n =>
        if (d = '.' || d = ')') && digits.length ≤ 9 then some (⟨d, n⟩, digits.length + 1) else none
      | _, _ => none

/-- An item of a list at the cursor: its mark, and the columns by which what belongs to it is indented
more than its container, where it is indented by so many itself. -/
def listItem? (c : LineCursor) (outer : Nat) : Option (ListMarker × Nat × LineCursor) :=
  if isRule c.rest then none
  else match listMarker? c.rest with
    | none => none
    | some (m, n) =>
      let behind := c.skip n
      let (missing, next) := behind.take 1
      if missing ≠ 0 && !behind.atEnd then none
      else
        let indent := outer + n + 1
        if isBlankText next.rest then some (m, indent, next)
        else
          let (more, further) := next.takeUpTo 4
          if more < 4 then some (m, indent + more, further) else some (m, indent, next)

/-- An item of a list that may begin within a paragraph: its mark and the text behind the mark. -/
def listItemStart? (t : Text) : Option (ListMarker × Text) :=
  match listMarker? t with
  | some (m, n) =>
    match t.drop n with
    | [] => some (m, [])
    | c :: r => if c = ' ' || c = '\t' then some (m, c :: r) else none
  | none => none

/-! ## Tables -/

/-- How the cells of a column are aligned. -/
inductive Alignment
  | none | left | center | right
deriving DecidableEq, Inhabited

/-- What is known of a column of the line below the head of a table while it is read: colons so far, and
whether anything but blanks was read. -/
structure ColumnState where
  alignment : Alignment
  started : Bool
deriving DecidableEq, Inhabited

/-- Reads a character of such a column. -/
def ColumnState.read (s : ColumnState) (c : Char) : ColumnState :=
  if c = ':' then
    ⟨match s.alignment with
      | .none => if s.started then .right else .left
      | .left => if s.started then .center else .left
      | a => a, true⟩
  else if c = '-' then { s with started := true }
  else s

/-- What is known of a column at its end. -/
def columnOf (cell : Text) : ColumnState := cell.foldl ColumnState.read ⟨.none, false⟩

/-- The columns that the line below the head of a table describes: dashes between bars, with a colon at
the side to which the column is aligned. -/
def tableColumns? (t : Text) : Option (List Alignment) :=
  let (indent, c) := (LineCursor.ofText t).takeUpTo 4
  let body := match c.rest with
    | '|' :: r => r
    | r => r
  let cells := Text.split '|' body
  if 4 ≤ indent || !c.rest.any (· = '|') || !c.rest.any (· = '-') ||
      !c.rest.all (· ∈ [' ', ':', '-', '|']) || !cells.dropLast.all (·.any (· = '-')) then none
  else
    let last := (cells.getLast?.map columnOf).getD ⟨.none, false⟩
    let columns := cells.dropLast.map fun cell => (columnOf cell).alignment
    some (if last.started then columns ++ [last.alignment] else columns)

/-- The number of bars in a line that are not escaped, and the text behind the last one. -/
def bars : Text → Nat × Option Text
  | '\\' :: _ :: r => bars r
  | '|' :: r =>
    let (n, behind) := bars r
    (n + 1, behind.or (some r))
  | _ :: r => bars r
  | [] => (0, none)

/-- The number of columns of a line with bars. -/
def columnCount (t : Text) : Nat :=
  match bars t with
  | (n, some behind) =>
    let n := if (t.dropWhile isSpace).head? = some '|' then n - 1 else n
    if isBlankText behind then n else n + 1
  | (_, none) => 0

end Pagewright.Markdown
