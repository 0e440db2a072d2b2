import Pagewright.Yaml.Cursor

/-! # `Yaml.Scalar`: the ways to write a text in YAML

A text is written in single or double quotes, plainly, or as a block of lines that keeps its line breaks
(`|`) or folds them (`>`). Each function reads one form from a cursor behind its opening character; a
single line break inside a text is read as a space, further ones are kept.
-/

namespace Pagewright.Yaml

/-- What has been read of a text and not yet been added to it: blanks within a line, the first line
break, and the line breaks after it. -/
structure Pending where
  blanks : Text
  first : Text
  further : Text
  /-- Has a line break been read since the last character? -/
  broken : Bool
deriving Inhabited

namespace Pending

/-- Nothing pending. -/
def none : Pending := ⟨[], [], [], false⟩

/-- The text that pending blanks and line breaks stand for. -/
def text (p : Pending) : Text :=
  if p.broken then
    if p.first = ['\n'] then (if p.further.isEmpty then [' '] else p.further)
    else p.first ++ p.further
  else p.blanks

/-- Reads blanks and line breaks. The last two arguments say when a tab is an error. -/
def read (fuel : Nat) (p : Pending) (c : Cursor) (noTabBefore : Int) : Option (Pending × Cursor) :=
  match fuel with
  | 0 => some (p, c)
  | fuel + 1 =>
    if c.atBlank then
      if p.broken && (c.column : Int) < noTabBefore && c.isAt '\t' then Option.none
      else if p.broken then read fuel p (c.skip 1) noTabBefore
      else read fuel { p with blanks := p.blanks ++ c.rest.take 1 } (c.skip 1) noTabBefore
    else if c.atBreak then
      let (text, next) := c.readBreak
      if p.broken then read fuel { p with further := p.further ++ text } next noTabBefore
      else read fuel { p with blanks := [], first := text, broken := true } next noTabBefore
    else some (p, c)

end Pending

/-! ## Quoted texts -/

/-- The character that a letter after a backslash stands for. -/
def escape? (c : Char) : Option Char :=
  if c = '0' then some '\x00'
  else if c = 'a' then some '\x07'
  else if c = 'b' then some '\x08'
  else if c = 't' || c = '\t' then some '\t'
  else if c = 'n' then some '\n'
  else if c = 'v' then some '\x0b'
  else if c = 'f' then some '\x0c'
  else if c = 'r' then some '\r'
  else if c = 'e' then some '\x1b'
  else if c = ' ' || c = '"' || c = '/' || c = '\\' then some c
  else if c = 'N' then some (Char.ofNat 0x85)
  else if c = '_' then some (Char.ofNat 0xA0)
  else if c = 'L' then some (Char.ofNat 0x2028)
  else if c = 'P' then some (Char.ofNat 0x2029)
  else none

/-- The number of hexadecimal digits after a letter that begins a code point. -/
def codeLength? (c : Char) : Option Nat :=
  if c = 'x' then some 2 else if c = 'u' then some 4 else if c = 'U' then some 8 else none

/-- The character of a code point that is one. -/
def charOfCode? (n : Nat) : Option Char :=
  if (0xD800 ≤ n && n ≤ 0xDFFF) || 0x10FFFF < n then none else some (Char.ofNat n)

/-- The characters of a quoted text up to a blank, a line break, an escaped line break or the closing
quote. The flag says that an escaped line break was read. -/
def quotedWord (fuel : Nat) (quote : Char) (c : Cursor) : Option (Text × Bool × Cursor) :=
  match fuel with
  | 0 => none
  | fuel + 1 =>
    let double := quote = '"'
    match c.rest with
    | [] => some ([], false, c)
    | x :: r =>
      if isBlank x || isBreak x then some ([], false, c)
      else if !double && x = '\'' && r.head? = some '\'' then do
        let (word, broken, c) ← quotedWord fuel quote (c.skip 2)
        return ('\'' :: word, broken, c)
      else if x = quote then some ([], false, c)
      else if double && x = '\\' then
        match r with
        | [] => none
        | y :: r' =>
          if isBreak y then some ([], true, (c.skip 1).readBreak.2)
          else match codeLength? y with
            | some n => do
              let code ← Text.natOfDigits? 16 (r'.take n)
              let ch ← if (r'.take n).length = n then charOfCode? code else none
              let (word, broken, c) ← quotedWord fuel quote (c.skip (2 + n))
              return (ch :: word, broken, c)
            | none => do
              let ch ← escape? y
              let (word, broken, c) ← quotedWord fuel quote (c.skip 2)
              return (ch :: word, broken, c)
      else do
        let (word, broken, c) ← quotedWord fuel quote (c.skip 1)
        return (x :: word, broken, c)

/-- A quoted text whose opening quote has been read. -/
def quotedText (fuel : Nat) (quote : Char) (c : Cursor) : Option (Text × Cursor) :=
  match fuel with
  | 0 => none
  | fuel + 1 =>
    if c.atDocumentBoundary || c.rest.isEmpty then none
    else do
      let (word, broken, c) ← quotedWord (c.rest.length + 1) quote c
      if c.isAt quote then return (word, c.skip 1)
      else
        let (pending, c) ←
          Pending.read (c.rest.length + 1) { Pending.none with broken := broken } c (-1)
        let (more, c) ← quotedText fuel quote c
        return (word ++ pending.text ++ more, c)

/-! ## Plain texts -/

/-- Does a plain text end before these characters? -/
def endsPlain (inFlow : Bool) : Text → Bool
  | [] => true
  | x :: r =>
    isBlank x || isBreak x || (x = ':' && atGap r) ||
      (inFlow && (x = ',' || x = '[' || x = ']' || x = '\x7b' || x = '\x7d'))

/-- Does a colon stand before a character that may not follow it inside brackets? -/
def misplacedColon (inFlow : Bool) : Text → Bool
  | ':' :: y :: _ =>
    inFlow && (y = ',' || y = '?' || y = '[' || y = ']' || y = '\x7b' || y = '\x7d')
  | _ => false

/-- The characters of a plain text up to a blank, a line break or its end. -/
def plainWord (inFlow : Bool) : Text → Option Text
  | [] => some []
  | x :: r =>
    if isBlank x || isBreak x then some []
    else if misplacedColon inFlow (x :: r) then none
    else if endsPlain inFlow (x :: r) then some []
    else (plainWord inFlow r).map (x :: ·)

/-- A plain text that goes on at the cursor, given what is pending before it. All its lines but the first
are indented at least so far. The flag says that line breaks were read behind it. -/
def plainText (fuel : Nat) (inFlow : Bool) (indent : Int) (pending : Pending) (c : Cursor) :
    Option (Text × Bool × Cursor) :=
  match fuel with
  | 0 => none
  | fuel + 1 =>
    if c.atDocumentBoundary || c.isAt '#' then some ([], pending.broken, c)
    else do
      let word ← plainWord inFlow c.rest
      let read := if word.isEmpty then [] else pending.text ++ word
      let pending := if word.isEmpty then pending else Pending.none
      let c := c.skip word.length
      if !(c.atBlank || c.atBreak) then return (read, pending.broken, c)
      else
        let (pending, c) ← Pending.read (c.rest.length + 1) pending c indent
        if !inFlow && (c.column : Int) < indent then return (read, pending.broken, c)
        else
          let (more, broken, c) ← plainText fuel inFlow indent pending c
          return (read ++ more, broken, c)

/-! ## Block texts -/

/-- What becomes of the line breaks at the end of a block text. -/
inductive Chomping
  | strip | clip | keep
deriving DecidableEq, Inhabited

/-- Reads the indentation of a line in a block text; an indentation of zero is not known yet. -/
def skipIndentation (fuel indent : Nat) (c : Cursor) : Cursor :=
  match fuel with
  | 0 => c
  | fuel + 1 =>
    if (indent = 0 || c.column < indent) && c.isAt ' ' then skipIndentation fuel indent (c.skip 1)
    else c

/-- Reads empty lines of a block text: their line breaks, and the greatest indentation among them. -/
def emptyLines (fuel indent widest : Nat) (c : Cursor) : Option (Text × Nat × Cursor) :=
  match fuel with
  | 0 => none
  | fuel + 1 =>
    let c := skipIndentation (c.rest.length + 1) indent c
    let widest := max widest c.column
    if (indent = 0 || c.column < indent) && c.isAt '\t' then none
    else if c.atBreak then do
      let (text, c) := c.readBreak
      let (more, widest, c) ← emptyLines fuel indent widest c
      return (text ++ more, widest, c)
    else some ([], widest, c)

/-- The lines of a block text. `breaks` are line breaks before the cursor, the first of them apart
(`first`); the flag says that the line before began with a blank. The text, and what is left pending. -/
def blockLines (fuel : Nat) (literal : Bool) (indent : Nat) (first breaks : Text) (blankBefore : Bool)
    (c : Cursor) : Option (Text × Text × Text × Cursor) :=
  match fuel with
  | 0 => none
  | fuel + 1 =>
    if c.column ≠ indent || c.rest.isEmpty then some ([], first, breaks, c)
    else do
      let blank := c.atBlank
      let joint :=
        if !literal && first = ['\n'] && !blankBefore && !blank then
          (if breaks.isEmpty then [' '] else [])
        else first
      let line := c.rest.takeWhile fun x => !isBreak x
      let (lineBreak, next) := (c.skip line.length).readBreak
      let (further, _, next) ← emptyLines (next.rest.length + 1) indent 0 next
      let (more, first, left, next) ← blockLines fuel literal indent lineBreak further blank next
      return (joint ++ breaks ++ line ++ more, first, left, next)

/-- The marks behind the opening character of a block text: chomping and indentation, in any order. -/
def blockHeader (c : Cursor) : Option (Chomping × Nat × Cursor) :=
  let chomping? (x : Char) : Option Chomping :=
    if x = '+' then some .keep else if x = '-' then some .strip else none
  match c.rest with
  | [] => some (.clip, 0, c)
  | x :: r =>
    match chomping? x with
    | some ch =>
      match r with
      | d :: _ =>
        if d = '0' then none
        else if Text.isDigit d then some (ch, d.toNat - 48, c.skip 2)
        else some (ch, 0, c.skip 1)
      | [] => some (ch, 0, c.skip 1)
    | none =>
      if x = '0' then none
      else if Text.isDigit x then
        match r.head?.bind chomping? with
        | some ch => some (ch, x.toNat - 48, c.skip 2)
        | none => some (.clip, x.toNat - 48, c.skip 1)
      else some (.clip, 0, c)

/-- A block text whose opening character has been read, inside a block of the given indentation. -/
def blockText (literal : Bool) (outer : Int) (c : Cursor) : Option (Text × Cursor) := do
  let (chomping, increment, c) ← blockHeader c
  let c := c.skipBlanks
  let c := if c.isAt '#' then c.skipToBreak else c
  if !(c.rest.isEmpty || c.atBreak) then none
  else
    let c := c.readBreak.2
    let given := if increment = 0 then 0 else outer.toNat + increment
    let (breaks, widest, c) ← emptyLines (c.rest.length + 1) given 0 c
    let indent := if given = 0 then max (max widest (outer + 1).toNat) 1 else given
    let (text, first, left, c) ← blockLines (c.rest.length + 1) literal indent [] breaks false c
    return (text ++ (if chomping = .strip then [] else first) ++
      (if chomping = .keep then left else []), c)

end Pagewright.Yaml
