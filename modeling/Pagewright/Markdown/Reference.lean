import Pagewright.Markdown.Entity
import Pagewright.Markdown.RawHtml
import Pagewright.Text.Lowercase

/-! # `Markdown.Reference`: where links lead

A link leads to a `Target`, which is written behind its text or in a definition of its own,
`[label]: destination "title"`. Labels are compared without regard to case and to the kind of blanks in them.
-/

namespace Pagewright.Markdown

/-- Where a link leads, and its title, which may be empty. -/
structure Target where
  destination : Text
  title : Text
deriving DecidableEq, Inhabited

/-- Puts a character in front of what was read. -/
def pushRead (c : Char) : Option (Text × Text) → Option (Text × Text) :=
  Option.map fun (read, rest) => (c :: read, rest)

/-! ## Labels -/

/-- What is written up to the bracket that closes a label, and what follows it. -/
def labelText? : Text → Option (Text × Text)
  | [] => none
  | '[' :: _ => none
  | ']' :: r => some ([], r)
  | '\\' :: c :: r => pushRead '\\' (pushRead c (labelText? r))
  | c :: r => pushRead c (labelText? r)

/-- A text with each row of blanks and line breaks replaced by one blank. -/
def collapseGaps (t : Text) : Text := go false t
where
  /-- The flag says that the character before was a blank. -/
  go : Bool → Text → Text
    | _, [] => []
    | inGap, c :: r =>
      if isGap c then (if inGap then go true r else ' ' :: go true r) else c :: go false r

/-- The label behind an opening bracket, as labels are compared, and what follows its closing bracket. -/
def label? (t : Text) : Option (Text × Text) :=
  match labelText? t with
  | some (label, rest) =>
    if label.length < 1000 && !label.all isGap then some (Text.fold (collapseGaps label), rest) else none
  | none => none

/-! ## Destinations -/

/-- A destination behind an angle bracket, and what follows the bracket that closes it. -/
def pointedDestination? : Text → Option (Text × Text)
  | [] => none
  | '>' :: r => some ([], r)
  | '\\' :: c :: r =>
    if Text.isAsciiPunctuation c then pushRead '\\' (pushRead c (pointedDestination? r))
    else pushRead '\\' (pointedDestination? (c :: r))
  | c :: r => if c = '<' || c = '\n' || c = '\r' then none else pushRead c (pointedDestination? r)

/-- A destination up to a blank or a bracket that closes more than was opened. The first number bounds the
brackets in one another, the second is the number of those that are open. -/
def bareDestination? (most : Nat) : Nat → Text → Option (Text × Text)
  | nesting, [] => if nesting = 0 then some ([], []) else none
  | nesting, '\\' :: c :: r =>
    if Text.isAsciiPunctuation c then pushRead '\\' (pushRead c (bareDestination? most nesting r))
    else pushRead '\\' (bareDestination? most nesting (c :: r))
  | nesting, c :: r =>
    if c.toNat ≤ 32 then (if nesting = 0 then some ([], c :: r) else none)
    else if c = '(' then
      if most < nesting then none else pushRead c (bareDestination? most (nesting + 1) r)
    else if c = ')' then
      if nesting = 0 then some ([], c :: r) else pushRead c (bareDestination? most (nesting - 1) r)
    else pushRead c (bareDestination? most nesting r)

/-- A destination as it is written, and what follows it. -/
def destination? (most : Nat) : Text → Option (Text × Text)
  | '<' :: r => pointedDestination? r
  | t => bareDestination? most 0 t

/-! ## Titles -/

/-- The character that closes a title. -/
def titleEnd? : Char → Option Char
  | '"' => some '"'
  | '\'' => some '\''
  | '(' => some ')'
  | _ => none

/-- What is written up to the character that closes a title, where `refused` may not occur. -/
def titleText? (close : Char) (refused : Option Char) : Text → Option (Text × Text)
  | [] => none
  | '\\' :: c :: r => pushRead '\\' (pushRead c (titleText? close refused r))
  | c :: r =>
    if c = close then some ([], r)
    else if refused = some c then none
    else pushRead c (titleText? close refused r)

/-- A title as it is written in a definition, and what follows it. -/
def definitionTitle? : Text → Option (Text × Text)
  | c :: r => (titleEnd? c).bind fun close => titleText? close none r
  | [] => none

/-- A text without the blanks at the starts of its lines; the flag says that a line has just begun. -/
def trimLineStarts : Bool → Text → Text
  | _, [] => []
  | atStart, c :: r =>
    if c = '\n' then '\n' :: trimLineStarts true r
    else if atStart && isSpace c then trimLineStarts true r
    else c :: trimLineStarts false r

/-- A title as it is written behind the text of a link, and what follows it. -/
def linkTitle? : Text → Option (Text × Text)
  | c :: r => (titleEnd? c).bind fun close =>
      (titleText? close (some c) r).map fun (title, rest) => (trimLineStarts false title, rest)
  | [] => none

/-! ## The target behind the text of a link -/

/-- What follows blanks with at most one line break among them. -/
def afterGap (t : Text) : Text :=
  match t.dropWhile isSpace with
  | '\r' :: '\n' :: r => r.dropWhile isSpace
  | '\r' :: r => r.dropWhile isSpace
  | '\n' :: r => r.dropWhile isSpace
  | r => r

/-- The target in round brackets, and what follows it. -/
def inlineTarget? : Text → Option (Target × Text)
  | '(' :: t => do
    let (destination, behind) ← destination? 32 (afterGap t)
    let (title, rest) := match linkTitle? (afterGap behind) with
      | some (title, rest) => (title, afterGap rest)
      | none => ([], afterGap behind)
    match rest with
    | ')' :: r => some (⟨unescape destination, unescape title⟩, r)
    | _ => none
  | _ => none

/-! ## Definitions -/

/-- A definition at the start of a paragraph: its label, its target and what follows it, from the end of a
line on. -/
def definition? : Text → Option (Text × Target × Text)
  | '[' :: t => do
    let (label, behindLabel) ← label? t
    let afterColon ← Text.after? ":".toList behindLabel
    let written := afterGap afterColon
    let (destination, behind) ← destination? 1 written
    -- a destination in angle brackets may be empty, a bare one may not
    if behind.length = written.length then none
    else
      let plain : Target := ⟨unescape destination, []⟩
      let gap := behind.dropWhile isSpace
      let titled? := (definitionTitle? (afterGap behind)).bind fun (title, rest) =>
        match rest.dropWhile isSpace with
        | [] => some (label, { plain with title := unescape title }, [])
        | '\n' :: r => some (label, { plain with title := unescape title }, '\n' :: r)
        | _ => none
      match gap with
      | [] => some (label, plain, [])
      | '\n' :: r => some (titled?.getD (label, plain, '\n' :: r))
      -- more on the line of the destination must be a title that ends the line
      | _ => if gap.length = behind.length then none else titled?
  | _ => none

end Pagewright.Markdown
