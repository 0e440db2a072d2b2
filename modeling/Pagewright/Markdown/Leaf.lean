import Pagewright.Markdown.Block
import Pagewright.Markdown.Reference

/-! # `Markdown.Leaf`: blocks that hold no blocks

Each reader gets the containers that the block lies in, where the text of its first line begins, and the
lines below. It returns the block and the lines that are left. A paragraph goes on where another block could
not begin (`interrupts`), also on lines that do not belong to its containers.
-/

namespace Pagewright.Markdown

/-! ## Code -/

/-- A text without the lines without text at its end. -/
def dropBlankLines (body : List (Bool × Text)) : List Text :=
  ((body.reverse.dropWhile (·.1)).reverse).map (·.2)

/-- The lines of code that are indented by four columns, each with whether it is blank. -/
def indentedLines (containers : List Container) : List Line → List (Bool × Text) × List Line
  | [] => ([], [])
  | l :: rest =>
    let (inside, c) := Container.enterLine containers l
    let (missing, own) := c.take 4
    if inside && (missing = 0 || own.atEnd) then
      let (more, left) := indentedLines containers rest
      ((isBlankText own.rest, own.shown ++ l.shownBreak) :: more, left)
    else ([], l :: rest)

/-- The lines of code up to the fence that closes it. -/
def fencedLines (containers : List Container) (fence : Char) (length indent : Nat) :
    List Line → Text × List Line
  | [] => ([], [])
  | l :: rest =>
    let (inside, c) := Container.enterLine containers l
    -- code is moved to the left as far as its fence is from the margin
    let own := (c.take indent).2
    let (missing, close) := own.take (4 - indent)
    if !inside then ([], l :: rest)
    else if missing ≠ 0 && closesFence fence length close.rest then ([], rest)
    else
      let (more, left) := fencedLines containers fence length indent rest
      (own.shown ++ l.shownBreak ++ more, left)

/-! ## HTML -/

/-- The lines of a block of HTML, from the end of a line on. -/
def htmlLines (containers : List Container) (start : HtmlBlockStart) (written : Text) :
    List Line → Text × List Line
  | [] => ([], [])
  | l :: rest =>
    let (inside, c) := Container.enterLine containers l
    let ended := match start with
      | .untilText close => Text.contains close written
      | .untilBlank => isBlankText c.rest
    if !inside || ended then ([], l :: rest)
    else
      let (more, left) := htmlLines containers start c.rest rest
      (c.shown ++ l.shownBreak ++ more, left)

/-! ## What a paragraph goes up to -/

/-- Are the two lines from here on blank? -/
def twoBlankLines (t : Text) : List Line → Bool
  | [] => isBlankText t
  | l :: _ => isBlankText t && isBlankText l.text

/-- Can the text begin a block within a paragraph? An item can if `anyItem` says so, or if it is not empty
and begins a list that counts from 1 or does not count. -/
def interrupts (anyItem : Bool) (t : Text) (rest : List Line) : Bool :=
  t.isEmpty || isRule t || (headingLevel? t).isSome || (fence? t).isSome || t.head? = some '>' ||
    (interruptingHtml? t).isSome ||
    match listItemStart? t with
    | some (marker, behind) =>
      anyItem || ((isBullet marker.delimiter || marker.number = 1) && !twoBlankLines behind rest)
    | none => false

/-- The columns of a table whose head is the text. -/
def tableHead? (containers : List Container) (t : Text) : List Line → Option (List Alignment)
  | [] => none
  | l :: _ =>
    let (inside, c) := Container.enterLine containers l
    match tableColumns? c.rest with
    | some columns => if inside && columnCount t = columns.length then some columns else none
    | none => none

/-- The lines of a paragraph, from its second line on; the level of the heading that they are if a line
below makes them one; and what is left. -/
def paragraphLines (containers : List Container) : List Line → List Line × Option Nat × List Line
  | [] => ([], none, [])
  | l :: rest =>
    let (inside, c) := Container.enterLine containers l
    let (missing, shifted) := c.take 4
    let t := shifted.rest
    let underline := if inside && missing ≠ 0 then underlineLevel? t else none
    -- four blanks go on with the paragraph, whatever follows them
    let interrupted := missing ≠ 0 &&
      (interrupts (!inside) t rest || t.head? = some '|' && (tableHead? containers t rest).isSome)
    match underline with
    | some level => ([], some level, rest)
    | none =>
      if interrupted || c.content.isEmpty then ([], none, l :: rest)
      else
        let (more, level, left) := paragraphLines containers rest
        (⟨c.rest, l.lineBreak⟩ :: more, level, left)

/-- The source of a heading: blanks at its end do not count. -/
def headingSource : List Line → List Line
  | [] => []
  | [l] => [⟨trimSpaceEnd l.text, []⟩]
  | l :: rest => l :: headingSource rest

/-! ## Tables -/

/-- A cell up to the bar behind it, and what follows from the bar on. -/
def cellText : Text → Text × Text
  | [] => ([], [])
  | '|' :: r => ([], '|' :: r)
  | '\\' :: '\\' :: '|' :: r =>
    let (cell, rest) := cellText r
    ('\\' :: '\\' :: '|' :: cell, rest)
  | '\\' :: c :: r =>
    if Text.isAsciiPunctuation c then
      let (cell, rest) := cellText r
      ('\\' :: c :: cell, rest)
    else
      let (cell, rest) := cellText (c :: r)
      ('\\' :: cell, rest)
  | c :: r =>
    let (cell, rest) := cellText r
    (c :: cell, rest)

/-- The cells of a line; the number bounds how many there are. -/
def cells (lineBreak : Text) : Nat → Text → List Line
  | 0, _ => []
  | fuel + 1, t =>
    let body := match t with
      | '|' :: r => r
      | _ => t
    match body.dropWhile isSpace with
    | [] => []
    | own =>
      let (cell, rest) := cellText own
      ⟨cell, if rest.isEmpty then lineBreak else []⟩ :: cells lineBreak fuel rest

/-- The row that a line is: cells that lack are empty, those that exceed the columns do not count. -/
def row (columns : Nat) (t lineBreak : Text) : List Line :=
  let found := cells lineBreak (t.length + 1) t
  found.take columns ++ List.replicate (columns - found.length) ⟨[], []⟩

/-- The rows of a table below its head, and what is left. -/
def tableRows (containers : List Container) (columns : Nat) : List Line → List (List Line) × List Line
  | [] => ([], [])
  | l :: rest =>
    let (inside, c) := Container.enterLine containers l
    let t := c.content
    if !inside || interrupts true t rest then ([], l :: rest)
    else
      let (more, left) := tableRows containers columns rest
      if (cells [] (t.length + 1) t).isEmpty then (more, left)
      else (row columns t l.lineBreak :: more, left)

/-! ## Definitions -/

/-- The lines that a definition may extend to. -/
def definitionLines (containers : List Container) : List Line → List Text
  | [] => []
  | l :: rest =>
    let (inside, c) := Container.enterLine containers l
    let (missing, shifted) := c.take 4
    -- a definition ends where a paragraph would
    let stops := missing ≠ 0 && (interrupts false shifted.rest rest || (underlineLevel? shifted.rest).isSome)
    if !inside || stops || c.content.isEmpty then []
    else c.rest :: definitionLines containers rest

/-- A definition that begins at a text: its label, its target and the lines that are left. -/
def readDefinition? (containers : List Container) (t : Text) (rest : List Line) :
    Option (Text × Target × List Line) :=
  if t.head? = some '[' then
    let behind := definitionLines containers rest
    match definition? (Text.join ['\n'] (t :: behind)) with
    | some (label, target, left) => some (label, target, rest.drop (behind.length - left.count '\n'))
    | none => none
  else none

/-! ## All of them -/

/-- Code that is indented, from where the text of its first line begins: the block, whether the last line
that was read was blank, and what is left. -/
def readIndented (containers : List Container) (c : LineCursor) (l : Line) (rest : List Line) :
    Block × Bool × List Line :=
  let (more, left) := indentedLines containers rest
  let body := (false, c.shown ++ l.shownBreak) :: more
  (.code [] (dropBlankLines body).flatten, (body.getLast?.map (·.1)).getD false, left)

/-- A block that begins with less than four blanks, and what is left. -/
def readLeaf (containers : List Container) (pending indent : Nat) (c : LineCursor) (l : Line)
    (rest : List Line) : Block × List Line :=
  let t := c.rest
  match htmlBlock? t with
  | some start =>
    let (more, left) := htmlLines containers start t rest
    (.html (List.replicate (max pending indent) ' ' ++ t ++ l.shownBreak ++ more), left)
  | none =>
    if isRule t then (.rule, rest)
    else match headingLevel? t, fence? t with
    | some level, _ => (.heading level [⟨headingText t, []⟩], rest)
    | none, some (fence, length) =>
      let info := ((t.drop length).dropWhile isSpace)
      let (body, left) := fencedLines containers fence length indent rest
      (.code (unescape (trimSpaceEnd info)) body, left)
    | none, none =>
      match tableHead? containers t rest with
      | some columns =>
        let (rows, left) := tableRows containers columns.length (rest.drop 1)
        (.table columns (row columns.length t l.lineBreak) rows, left)
      | none =>
        let (more, level, left) := paragraphLines containers rest
        let source := ⟨t, l.lineBreak⟩ :: more
        match level with
        | some n => (.heading n (headingSource source), left)
        | none => (.paragraph source, left)

end Pagewright.Markdown
