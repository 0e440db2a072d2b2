import Pagewright.Text.Basic

/-! # `Frontmatter.Split`: the header of a document

A document may begin with a header between two lines of three dashes, behind which only spaces and tabs
may stand. `splitHeader` finds it. A header is ended by the first such line that comes after at least
one line of its own, even an empty one; only when there is none may the second line of dashes follow
the first one at once.
-/

namespace Pagewright

/-- Is the character a space or a tab? -/
def isSpaceOrTab (c : Char) : Bool := c = ' ' || c = '\t'

/-- What follows a line break at the start of a text. -/
def afterLineBreak? : Text → Option Text
  | '\n' :: r => some r
  | '\r' :: '\n' :: r => some r
  | _ => none

/-- What follows three dashes with spaces and tabs behind them. -/
def afterDashes? (t : Text) : Option Text :=
  (Text.after? "---".toList t).map (List.dropWhile isSpaceOrTab)

/-- What follows the line of dashes that opens a header. -/
def afterOpeningLine? (t : Text) : Option Text := (afterDashes? t).bind afterLineBreak?

/-- What follows the line of dashes that closes a header, which may be the last one of the text. -/
def afterClosingLine? (t : Text) : Option Text :=
  match afterDashes? t with
  | some [] => some []
  | some r => afterLineBreak? r
  | none => none

/-- The text up to the first line break with a closing line behind it, and what follows that line. -/
def headerLines? : Text → Option (Text × Text)
  | [] => none
  | c :: r =>
    match (afterLineBreak? (c :: r)).bind afterClosingLine? with
    | some rest => some ([], rest)
    | none => (headerLines? r).map fun (header, rest) => (c :: header, rest)

/-- The header of a document, if it has one, and its body. -/
def splitHeader (t : Text) : Option Text × Text :=
  match afterOpeningLine? t with
  | none => (none, t)
  | some r =>
    match headerLines? r with
    | some (header, body) => (some header, body)
    | none =>
      match afterClosingLine? r with
      | some body => (some [], body)
      | none => (none, t)

/-- The body of a document without the white space at its ends. -/
def stripHeader (t : Text) : Text := Text.trim (splitHeader t).2

end Pagewright
