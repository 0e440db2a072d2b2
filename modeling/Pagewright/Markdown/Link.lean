import Pagewright.Markdown.Autolink
import Pagewright.Markdown.Emphasis

/-! # `Markdown.Link`: running text from marks

`runningText` goes through the marks of a paragraph from left to right. Code, HTML and addresses are
recognised where they begin. A bracket that opens is kept until one closes; then the text between them is a
link or an image if a target follows, or if a definition has that label. No link lies in another one. The
rows within a link are resolved apart from those around it.
-/

namespace Pagewright.Markdown

/-- A bracket that is open. -/
structure Bracket where
  image : Bool
  /-- Can it still begin a link? -/
  enabled : Bool
  /-- What is written behind it, the last character first. -/
  written : Text
  /-- The pieces behind it, the latest first. -/
  pieces : List Piece
deriving Inhabited

/-- What was read of a paragraph. -/
structure Reading where
  /-- The open brackets, the innermost first. -/
  brackets : List Bracket
  /-- The pieces before them, the latest first. -/
  pieces : List Piece
deriving Inhabited

/-- How a bracket that opens is written. -/
def Bracket.raw (b : Bracket) : Text := if b.image then ['!', '['] else ['[']

namespace Reading

/-- What is known at the start. -/
def start : Reading := ⟨[], []⟩

/-- Puts pieces, the latest first, behind the others; `raw` is how they are written. -/
def append (r : Reading) (pieces : List Piece) (raw : Text) : Reading :=
  match r.brackets with
  | [] => { r with pieces := pieces ++ r.pieces }
  | b :: outer =>
    { r with brackets :=
        { b with pieces := pieces ++ b.pieces, written := raw.reverse ++ b.written } :: outer }

/-- Puts a finished piece behind the others. -/
def add (r : Reading) (i : Inline) (raw : Text) : Reading := r.append [.done i] raw

/-- Puts a text behind the pieces. -/
def addText (r : Reading) (t : Text) (raw : Text) : Reading := r.add (.text t) raw

/-- Puts a bracket that begins nothing, and what is behind it, behind the pieces. -/
def flatten (r : Reading) (b : Bracket) : Reading :=
  r.append (b.pieces ++ [.done (.text b.raw)]) (b.raw ++ b.written.reverse)

/-- No bracket that is open can begin a link any more. -/
def disableLinks (r : Reading) : Reading :=
  { r with brackets := r.brackets.map fun b => if b.image then b else { b with enabled := false } }

/-- Puts the link or the image that a bracket began behind the pieces; `raw` is what is written from the
closing bracket on. -/
def close (r : Reading) (b : Bracket) (target : Target) (raw : Text) : Reading :=
  let inner := resolveRows b.pieces.reverse
  let i := if b.image then Inline.image target inner else .link false target inner
  let closed := r.add i (b.raw ++ b.written.reverse ++ raw)
  if b.image then closed else closed.disableLinks

end Reading

/-! ## Marks ahead -/

/-- The marks behind `n` characters. -/
def dropMarks : Nat → List Mark → List Mark
  | _, [] => []
  | n, m :: rest => if n = 0 then m :: rest else dropMarks (n - m.raw.length) rest

/-- The marks, where the bracket behind `n` characters does not stand for itself. -/
def spoilBracket : Nat → List Mark → List Mark
  | _, [] => []
  | n, m :: rest =>
    if n = 0 then
      match m with
      | .closeBracket _ => .closeBracket false :: rest
      | _ => m :: rest
    else m :: spoilBracket (n - m.raw.length) rest

/-- The code up to a row of `n` backquotes, as it is written, and the marks behind the row. -/
def codeUpTo (n : Nat) : List Mark → Option (Text × List Mark)
  | [] => none
  | m :: rest =>
    match m with
    | .ticks k escaped =>
      if k = n then some (if escaped then ['\\'] else [], rest)
      else (codeUpTo n rest).map fun (code, left) => (m.raw ++ code, left)
    | _ => (codeUpTo n rest).map fun (code, left) => (m.raw ++ code, left)

/-- Code as it is shown: line breaks become blanks, and of the blanks at its two ends one each is left out
if there is more than blanks. -/
def shownCode (inTable : Bool) (raw : Text) : Text :=
  let t := Text.substitute (fun
    | '\r' :: '\n' :: r => some ([' '], r)
    | '\r' :: r => some ([' '], r)
    | '\n' :: r => some ([' '], r)
    | '\\' :: '|' :: r => if inTable then some (['|'], r) else none
    | _ => none) raw
  if t.head? = some ' ' && t.getLast? = some ' ' && !t.all (· = ' ') then t.tail.dropLast else t

/-! ## Reading -/

/-- What is known of the document where running text is read. -/
structure Surroundings where
  inTable : Bool
  definitions : List (Text × Target)

/-- The target that the first definition for a label gives. -/
def Surroundings.target? (s : Surroundings) (label : Text) : Option Target :=
  (s.definitions.find? (·.1 = label)).map (·.2)

/-- Reads code that begins with a row of backquotes, or the row as text. -/
def readTicks (s : Surroundings) (n : Nat) (escaped : Bool) (rest : List Mark) (r : Reading) :
    Reading × List Mark :=
  -- a backslash takes one of the backquotes away, but only where the row begins
  let own := if escaped then n - 1 else n
  let raw := (Mark.ticks n escaped).raw
  match if own = 0 then none else codeUpTo own rest with
  | none => (r.addText (List.replicate n '`') raw, rest)
  | some (code, left) =>
    let r := if escaped then r.addText ['`'] [] else r
    (r.add (.code (shownCode s.inTable code)) (raw ++ code ++ List.replicate own '`'), left)

/-- Reads an address or HTML that begins with an angle bracket, or the bracket as text. -/
def readAngle (rest : List Mark) (r : Reading) : Reading × List Mark :=
  let ahead := rawText rest
  match autolink? ahead with
  | some (mail, address, behind) =>
    let n := ahead.length - behind.length
    (r.add (.link mail ⟨address, []⟩ [.text address]) ('<' :: ahead.take n), dropMarks n rest)
  | none =>
    match afterInlineHtml? ahead with
    | some behind =>
      let n := ahead.length - behind.length
      (r.add (.html ('<' :: ahead.take n)) ('<' :: ahead.take n), dropMarks n rest)
    | none => (r.addText ['<'] ['<'], rest)

/-- Reads a bracket that closes, with the target or the label behind it. -/
def readClose (s : Surroundings) (standsForItself : Bool) (rest : List Mark) (r : Reading) :
    Reading × List Mark :=
  match r.brackets with
  | [] => (r.addText [']'] [']'], rest)
  | b :: outer =>
    let r := { r with brackets := outer }
    let failed := (r.flatten b).addText [']'] [']']
    let ahead := rawText rest
    let closeBehind := fun (target : Target) (n : Nat) =>
      (r.close b target (']' :: ahead.take n), dropMarks n rest)
    if !b.enabled then (failed, rest)
    else match inlineTarget? ahead with
      | some (target, behind) => closeBehind target (ahead.length - behind.length)
      | none =>
        -- the text between the brackets may be a label itself
        let own? := match label? (b.written.reverse ++ [']']) with
          | some (label, []) => if standsForItself then s.target? label else none
          | _ => none
        match ahead with
        | '[' :: ']' :: _ =>
          match own? with
          | some target => closeBehind target 2
          | none => (failed, rest)
        | _ =>
          let label := match ahead with
            | '[' :: t => label? t
            | _ => none
          match label with
          | some (label, behind) =>
            let n := ahead.length - behind.length
            match s.target? label with
            | some target => closeBehind target n
            -- the label behind the text has no definition, so it is text as well
            | none => (failed, spoilBracket (n - 1) rest)
          | none =>
            match own? with
            | some target => closeBehind target 0
            | none => (failed, rest)

/-- Reads the mark at the start of marks; the marks that are left. -/
def readMark (s : Surroundings) (m : Mark) (rest : List Mark) (r : Reading) : Reading × List Mark :=
  match m with
  | .char c => (r.addText [c] [c], rest)
  | .spelled raw shown => (r.addText shown raw, rest)
  | .row c n opens closes => (r.append [.row c n opens closes] m.raw, rest)
  | .ticks n escaped => readTicks s n escaped rest r
  | .angle => readAngle rest r
  | .openBracket => ({ r with brackets := ⟨false, true, [], []⟩ :: r.brackets }, rest)
  | .openImage => ({ r with brackets := ⟨true, true, [], []⟩ :: r.brackets }, rest)
  | .closeBracket standsForItself => readClose s standsForItself rest r
  | .softBreak raw => (r.add .softBreak raw, rest)
  | .hardBreak raw => (r.add .hardBreak raw, rest)

/-- Reads marks; the number bounds how many there are. -/
def readMarks (s : Surroundings) : Nat → List Mark → Reading → Reading
  | 0, _, r => r
  | _ + 1, [], r => r
  | fuel + 1, m :: rest, r =>
    let (r, left) := readMark s m rest r
    readMarks s fuel left r

/-- The pieces that were read, the latest first; the brackets that are open begin nothing. -/
def Reading.all (r : Reading) : List Piece :=
  r.brackets.flatMap (fun b => b.pieces ++ [.done (.text b.raw)]) ++ r.pieces

/-- The running text of lines. -/
def runningText (s : Surroundings) (source : List Line) : List Inline :=
  let ms := marks s.inTable source
  resolveRows (readMarks s ms.length ms .start).all.reverse

end Pagewright.Markdown
