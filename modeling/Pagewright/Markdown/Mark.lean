import Pagewright.Markdown.Inline

/-! # `Markdown.Mark`: the marks in running text

The lines of a paragraph are cut into `Mark`s: single characters, and what may turn out to mean more than its
characters. Every mark knows how it is written (`Mark.raw`), so that nothing of the text is lost
where a mark turns out to mean nothing.
-/

namespace Pagewright.Markdown

/-- A mark in running text. -/
inductive Mark where
  | char (c : Char)
  /-- A text that is written in another way. -/
  | spelled (raw shown : Text)
  /-- A row of stars, underscores or tildes, which may begin or end an emphasis. -/
  | row (c : Char) (length : Nat) (opens closes : Bool)
  /-- A row of backquotes, which may stand behind a backslash. -/
  | ticks (length : Nat) (escaped : Bool)
  | angle
  | openBracket
  | openImage
  /-- A bracket that closes; it may close a label that stands for itself. -/
  | closeBracket (standsForItself : Bool)
  | softBreak (raw : Text)
  | hardBreak (raw : Text)
deriving DecidableEq, Inhabited

/-- How a mark is written. -/
def Mark.raw : Mark → Text
  | .char c => [c]
  | .spelled raw _ => raw
  | .row c n _ _ => List.replicate n c
  | .ticks n escaped => (if escaped then ['\\'] else []) ++ List.replicate n '`'
  | .angle => ['<']
  | .openBracket => ['[']
  | .openImage => ['!', '[']
  | .closeBracket _ => [']']
  | .softBreak raw => raw
  | .hardBreak raw => raw

/-- How marks are written. -/
def rawText (marks : List Mark) : Text := marks.flatMap Mark.raw

/-! ## Rows -/

/-- Can a row begin an emphasis between the two characters? -/
def canOpen (c : Char) (n : Nat) (before after : Option Char) : Bool :=
  match after with
  | none => false
  | some a =>
    if Text.isBlank a then false
    else match before with
      | none => true
      | some b =>
        (c = '*' || c = '~' && 2 ≤ n) && !Text.isPunctuation a || Text.isBlank b || Text.isPunctuation b

/-- Can a row end an emphasis between the two characters? -/
def canClose (c : Char) (n : Nat) (before after : Option Char) : Bool :=
  match before with
  | none => false
  | some b =>
    if Text.isBlank b then false
    else match after with
      | none => true
      | some a =>
        (c = '*' || c = '~' && 2 ≤ n) && !Text.isPunctuation b || Text.isBlank a || Text.isPunctuation a

/-- The marks of a row between two characters. Three tildes or more mean nothing. -/
def rowMarks (c : Char) (n : Nat) (before after : Option Char) : List Mark :=
  let opens := canOpen c n before after
  let closes := canClose c n before after
  if (opens || closes) && (c ≠ '~' || n ≤ 2) then [.row c n opens closes]
  else List.replicate n (.char c)

/-! ## Lines -/

/-- The marks at the start of a text that are written with more than one character or that depend on what
follows, with what follows them. -/
def specialMarks? (inTable : Bool) (before : Option Char) : Text → Option (List Mark × Text)
  | '\\' :: '`' :: r => some ([.ticks (runLength '`' r + 1) true], r.dropWhile (· = '`'))
  -- in a cell the second backslash belongs to the bar
  | '\\' :: '\\' :: '|' :: r =>
    if inTable then some ([.spelled ['\\', '\\', '|'] ['|']], r)
    else some ([.spelled ['\\', '\\'] ['\\']], '|' :: r)
  | '\\' :: c :: r => if Text.isAsciiPunctuation c then some ([.spelled ['\\', c] [c]], r) else none
  | '`' :: r => some ([.ticks (runLength '`' r + 1) false], r.dropWhile (· = '`'))
  | '&' :: r => (entity? r).map fun (value, rest) =>
      ([.spelled (Text.consumed ('&' :: r) rest) value], rest)
  | '<' :: '\\' :: _ => none
  | '<' :: r => some ([.angle], r)
  | '!' :: '[' :: r => some ([.openImage], r)
  | '[' :: r => some ([.openBracket], r)
  | ']' :: r => some ([.closeBracket true], r)
  | c :: r =>
    if c = '*' || c = '_' || c = '~' then
      let rest := r.dropWhile (· = c)
      some (rowMarks c (runLength c r + 1) before rest.head?, rest)
    else none
  | [] => none

/-- The marks of a line, read from behind a character; the number bounds how many there are. -/
def lineMarks (inTable : Bool) : Nat → Option Char → Text → List Mark
  | 0, _, _ => []
  | _ + 1, _, [] => []
  | fuel + 1, before, c :: r =>
    match specialMarks? inTable before (c :: r) with
    | some (marks, rest) =>
      marks ++ lineMarks inTable fuel ((Text.consumed (c :: r) rest).getLast?) rest
    | none => .char c :: lineMarks inTable fuel (some c) r

/-- The number of characters at the end of a text that have a property. -/
def countAtEnd (p : Char → Bool) (t : Text) : Nat := (t.reverse.takeWhile p).length

/-- The part of a line that is text, and the break behind it if another line follows. -/
def textAndBreak (t : Text) (gap : Text) : Text × Mark :=
  let blanks := countAtEnd isSpace t
  if countAtEnd (· = '\\') t % 2 = 1 then (t.dropLast, .hardBreak ('\\' :: gap))
  else if 2 ≤ blanks then (trimSpaceEnd t, .hardBreak (t.drop (t.length - blanks) ++ gap))
  else (t, .softBreak gap)

/-- The part of the last line that is text: a single blank before a line break is part of it. -/
def lastText (l : Line) : Text :=
  if l.lineBreak.isEmpty || 2 ≤ countAtEnd isSpace l.text then trimSpaceEnd l.text else l.text

/-- Is the character a blank or a tab? -/
def isIndent (c : Char) : Bool := c = ' ' || c = '\t'

/-- The marks of lines. Blanks at the starts of lines belong to the breaks before them. -/
def marks (inTable : Bool) : List Line → List Mark
  | [] => []
  | [l] =>
    let t := (lastText l).dropWhile isIndent
    lineMarks inTable t.length none t
  | l :: next :: rest =>
    let gap := l.lineBreak ++ next.text.takeWhile isIndent
    let (own, lineEnd) := textAndBreak (l.text.dropWhile isIndent) gap
    lineMarks inTable own.length none own ++ lineEnd :: marks inTable (next :: rest)

end Pagewright.Markdown
