import Pagewright.Yaml.Scalar

/-! # `Yaml.Token`: the tokens of a YAML text

Indentation is turned into tokens that begin and end blocks. A key without a question mark is only known
as a key when the colon behind it is met; the places where such a key may have begun are remembered
(`KeyPlace`), and the tokens that belong before it are put in there.
-/

namespace Pagewright.Yaml

/-- A token. -/
inductive Token
  | streamEnd
  | version (major minor : Nat)
  | handle (name expansion : Text)
  | documentStart | documentEnd
  | sequenceBlock | mappingBlock | blockEnd
  | sequenceOpen | sequenceClose
  | mappingOpen | mappingClose
  | entry | comma | key | value
  | reference (name : Text)
  | anchor (name : Text)
  | tag (handle suffix : Text)
  | scalar (text : Text) (plain : Bool)
deriving DecidableEq, Inhabited

/-- A place where a key may have begun. -/
structure KeyPlace where
  /-- Must a colon follow, because nothing else can begin here? -/
  required : Bool
  /-- The number of tokens before it. -/
  position : Nat
  cursor : Cursor
deriving Inhabited

/-- What is known while tokens are read. -/
structure Scanner where
  cursor : Cursor
  /-- The indentation of the block that is open, -1 when none is. -/
  indent : Int
  /-- The indentations of the blocks around it, innermost first. -/
  outer : List Int
  /-- May a key begin here? -/
  keyAllowed : Bool
  /-- Where a key of the current level may have begun. -/
  keyPlace : Option KeyPlace
  /-- The same for the brackets that are open, innermost first; there is one for each. -/
  outerPlaces : List (Option KeyPlace)
  /-- The tokens so far. -/
  tokens : Array Token
deriving Inhabited

namespace Scanner

/-- The start of a text. -/
def start (t : Text) : Scanner := ⟨.ofText t, -1, [], true, none, [], #[]⟩

/-- Is a bracket open? -/
def inFlow (s : Scanner) : Bool := !s.outerPlaces.isEmpty

/-- Adds a token. -/
def push (s : Scanner) (t : Token) : Scanner := { s with tokens := s.tokens.push t }

/-- Skips so many characters. -/
def skip (s : Scanner) (n : Nat) : Scanner := { s with cursor := s.cursor.skip n }

/-- Puts a token in at a position. -/
def insertAt (s : Scanner) (n : Nat) (t : Token) : Scanner :=
  { s with tokens := s.tokens.extract 0 n ++ #[t] ++ s.tokens.extract n s.tokens.size }

/-! ## Keys -/

/-- Gives up the place where a key may have begun. -/
def dropKeyPlace (s : Scanner) : Option Scanner :=
  match s.keyPlace with
  | some k => if k.required then none else some { s with keyPlace := none }
  | none => some s

/-- Remembers the cursor as a place where a key may begin, if one may. -/
def saveKeyPlace (s : Scanner) : Option Scanner :=
  if s.keyAllowed then do
    let s ← s.dropKeyPlace
    -- where a block's keys begin nothing but a key can stand
    let required := !s.inFlow && s.indent == s.cursor.column
    return { s with keyPlace := some ⟨required, s.tokens.size, s.cursor⟩ }
  else some s

/-- A key is written on one line and is not longer than 1024 characters. -/
def isStale (c : Cursor) (k : KeyPlace) : Bool :=
  k.cursor.line < c.line || k.cursor.index + 1024 < c.index

/-- Forgets a place from which a key would be too long. -/
def refresh (c : Cursor) : Option KeyPlace → Option (Option KeyPlace)
  | none => some none
  | some k => if isStale c k then (if k.required then none else some none) else some (some k)

/-- Forgets all places from which keys would be too long. -/
def dropStalePlaces (s : Scanner) : Option Scanner := do
  let outerPlaces ← s.outerPlaces.mapM (refresh s.cursor)
  let keyPlace ← refresh s.cursor s.keyPlace
  return { s with keyPlace := keyPlace, outerPlaces := outerPlaces }

/-! ## Indentation -/

/-- Opens a block at a column that is further right than the block that is open. -/
def openBlock (s : Scanner) (column : Nat) (position : Nat) (t : Token) : Scanner :=
  if s.inFlow || !(s.indent < column) then s
  else { s.insertAt position t with indent := column, outer := s.indent :: s.outer }

/-- Closes the blocks that are further right than a column. -/
def closeBlocks (s : Scanner) (column : Int) : Scanner :=
  if s.inFlow then s
  else
    let rec go (indent : Int) (outer : List Int) (tokens : Array Token) :
        Int × List Int × Array Token :=
      if column < indent then
        match outer with
        | i :: rest => go i rest (tokens.push .blockEnd)
        | [] => (-1, [], tokens.push .blockEnd)
      else (indent, outer, tokens)
    let (indent, outer, tokens) := go s.indent s.outer s.tokens
    { s with indent := indent, outer := outer, tokens := tokens }

/-! ## Between tokens -/

/-- Skips blanks, comments and line breaks up to the next token. -/
def skipToToken (fuel : Nat) (s : Scanner) : Scanner :=
  match fuel with
  | 0 => s
  | fuel + 1 =>
    let c := s.cursor
    -- tabs cannot indent a block
    let tabs := s.inFlow || !s.keyAllowed
    let c := c.skip (c.rest.takeWhile fun x => x = ' ' || (tabs && x = '\t')).length
    let c := if c.isAt '#' then c.skipToBreak else c
    if c.atBreak then
      skipToToken fuel
        { s with cursor := c.readBreak.2, keyAllowed := s.keyAllowed || !s.inFlow }
    else { s with cursor := c }

/-! ## Marks -/

/-- The mark that opens a document or ends one. -/
def documentMark (s : Scanner) (t : Token) : Option Scanner := do
  let s ← (s.closeBlocks (-1)).dropKeyPlace
  return { (s.skip 3).push t with keyAllowed := false }

/-- An opening bracket. -/
def bracketOpen (s : Scanner) (t : Token) : Option Scanner := do
  let s ← s.saveKeyPlace
  let s := { s with outerPlaces := s.keyPlace :: s.outerPlaces, keyPlace := none, keyAllowed := true }
  return (s.skip 1).push t

/-- A closing bracket. -/
def bracketClose (s : Scanner) (t : Token) : Option Scanner := do
  let s ← s.dropKeyPlace
  let s := match s.outerPlaces with
    | k :: rest => { s with keyPlace := k, outerPlaces := rest }
    | [] => s
  return { (s.skip 1).push t with keyAllowed := false }

/-- A comma between brackets. -/
def commaMark (s : Scanner) : Option Scanner := do
  let s ← s.dropKeyPlace
  return { (s.skip 1).push .comma with keyAllowed := true }

/-- The dash before an item of a list. -/
def entryMark (s : Scanner) : Option Scanner :=
  if !s.inFlow && !s.keyAllowed then none
  else do
    let s ← (s.openBlock s.cursor.column s.tokens.size .sequenceBlock).dropKeyPlace
    return { (s.skip 1).push .entry with keyAllowed := true }

/-- The question mark before a key. -/
def keyMark (s : Scanner) : Option Scanner :=
  if !s.inFlow && !s.keyAllowed then none
  else do
    let s ← (s.openBlock s.cursor.column s.tokens.size .mappingBlock).dropKeyPlace
    return { (s.skip 1).push .key with keyAllowed := !s.inFlow }

/-- The colon behind a key. -/
def valueMark (s : Scanner) : Option Scanner :=
  match s.keyPlace with
  | some k =>
    -- only now is it known that a key began there, and perhaps a mapping with it
    let s := (s.insertAt k.position .key).openBlock k.cursor.column k.position .mappingBlock
    some { (s.skip 1).push .value with keyPlace := none, keyAllowed := false }
  | none =>
    if !s.inFlow && !s.keyAllowed then none
    else
      let s := s.openBlock s.cursor.column s.tokens.size .mappingBlock
      some { (s.skip 1).push .value with keyAllowed := !s.inFlow }

/-! ## Names -/

/-- The name of an anchor or of a reference to one, whose mark is at the cursor. -/
def nameMark (s : Scanner) (token : Text → Token) : Option Scanner := do
  let s ← s.saveKeyPlace
  let c := s.cursor.skip 1
  let name := c.rest.takeWhile isWordChar
  let c := c.skip name.length
  let ends := atGap c.rest ||
    match c.rest with
    | x :: _ => x ∈ ['?', ':', ',', ']', '\x7d', '%', '@', '\x60']
    | [] => true
  if name.isEmpty || !ends then none
  else return { { s with cursor := c }.push (token name) with keyAllowed := false }

/-- Can the character stand in a tag? -/
def isTagChar (verbatim : Bool) (c : Char) : Bool :=
  isWordChar c || c ∈ ";/?:@&=+$.!~*'()".toList || (verbatim && (c = ',' || c = '[' || c = ']'))

/-- The characters of a tag; a percent sign and two digits stand for one of them. -/
def tagText (verbatim : Bool) (fuel : Nat) (c : Cursor) : Option (Text × Cursor) :=
  match fuel with
  | 0 => none
  | fuel + 1 =>
    match c.rest with
    | '%' :: a :: b :: _ => do
      let n ← Text.natOfDigits? 16 [a, b]
      let (more, c) ← tagText verbatim fuel (c.skip 3)
      return (Char.ofNat n :: more, c)
    | x :: _ =>
      if isTagChar verbatim x then do
        let (more, c) ← tagText verbatim fuel (c.skip 1)
        return (x :: more, c)
      else some ([], c)
    | [] => some ([], c)

/-- A handle: a word between exclamation marks. What begins like one and does not end so is returned
too. -/
def tagHandle? (c : Cursor) : Option (Text × Cursor) :=
  match c.rest with
  | '!' :: r =>
    let word := r.takeWhile isWordChar
    let c := c.skip (1 + word.length)
    if c.isAt '!' then some ('!' :: word ++ ['!'], c.skip 1) else some ('!' :: word, c)
  | _ => none

/-- A tag, whose mark is at the cursor. -/
def tagMark (s : Scanner) : Option Scanner := do
  let s ← s.saveKeyPlace
  let fuel := s.cursor.rest.length + 1
  let (handle, suffix, c) ←
    match s.cursor.rest with
    | '!' :: '<' :: _ => do
      let (suffix, c) ← tagText true fuel (s.cursor.skip 2)
      if suffix.isEmpty || !c.isAt '>' then none
      else some (([] : Text), suffix, c.skip 1)
    | _ => do
      let (handle, c) ← tagHandle? s.cursor
      let (suffix, c) ← tagText false fuel c
      if 1 < handle.length && handle.getLast? = some '!' then
        if suffix.isEmpty then none else some (handle, suffix, c)
      else
        let suffix := handle.drop 1 ++ suffix
        if suffix.isEmpty then some ([], ['!'], c) else some (['!'], suffix, c)
  if atGap c.rest || (s.inFlow && c.isAt ',') then
    return { { s with cursor := c }.push (.tag handle suffix) with keyAllowed := false }
  else none

/-! ## Directives -/

/-- A number of at most nine digits. -/
def directiveNumber? (c : Cursor) : Option (Nat × Cursor) :=
  let ds := c.rest.takeWhile Text.isDigit
  if ds.isEmpty || 9 < ds.length then none
  else (Text.natOfDigits? 10 ds).map fun n => (n, c.skip ds.length)

/-- A line that begins with a percent sign: the version of YAML, or what a handle stands for. -/
def directive (s : Scanner) : Option Scanner := do
  let s ← (s.closeBlocks (-1)).dropKeyPlace
  let c := s.cursor.skip 1
  let name := c.rest.takeWhile isWordChar
  let c := c.skip name.length
  if name.isEmpty || !atGap c.rest then none
  else
    let c := c.skipBlanks
    let (token, c) ←
      if name = "YAML".toList then do
        let (major, c) ← directiveNumber? c
        if c.isAt '.' then
          let (minor, c) ← directiveNumber? (c.skip 1)
          some (Token.version major minor, c)
        else none
      else if name = "TAG".toList then do
        let (handle, c) ← tagHandle? c
        if handle.getLast? ≠ some '!' || !c.atBlank then none
        else
          let c := c.skipBlanks
          let (expansion, c) ← tagText true (c.rest.length + 1) c
          if expansion.isEmpty || !atGap c.rest then none
          else some (Token.handle handle expansion, c)
      else none
    let c := c.skipBlanks
    let c := if c.isAt '#' then c.skipToBreak else c
    if c.rest.isEmpty || c.atBreak then
      return { { s with cursor := c.readBreak.2 }.push token with keyAllowed := false }
    else none

/-! ## Texts -/

/-- A quoted text. -/
def quoted (s : Scanner) (quote : Char) : Option Scanner := do
  let s ← s.saveKeyPlace
  let c := s.cursor.skip 1
  let (text, c) ← quotedText (c.rest.length + 1) quote c
  return { { s with cursor := c }.push (.scalar text false) with keyAllowed := false }

/-- A plain text. -/
def plain (s : Scanner) : Option Scanner := do
  let s ← s.saveKeyPlace
  let (text, broken, c) ←
    plainText (s.cursor.rest.length + 1) s.inFlow (s.indent + 1) Pending.none s.cursor
  return { { s with cursor := c }.push (.scalar text true) with keyAllowed := broken }

/-- A block text. -/
def block (s : Scanner) (literal : Bool) : Option Scanner := do
  let s ← s.dropKeyPlace
  let (text, c) ← blockText literal s.indent (s.cursor.skip 1)
  return { { s with cursor := c }.push (.scalar text false) with keyAllowed := true }

/-- Can a plain text begin with these characters? -/
def beginsPlain (inFlow : Bool) : Text → Bool
  | [] => false
  | x :: r =>
    let gap := atGap r
    let blank := match r with
      | y :: _ => isBlank y
      | [] => false
    if x = '-' then !blank
    else if x = '?' || x = ':' then !inFlow && !gap
    else !(isBlank x || isBreak x || x ∈ ",[]\x7b\x7d#&*!|>'\"%@\x60".toList)

/-! ## All tokens of a text -/

/-- Reads the next token, which is not the end of the text. -/
def next (s : Scanner) (x : Char) (r : Text) : Option Scanner :=
  if s.cursor.column = 0 && x = '%' then s.directive
  else if s.cursor.atDocumentMark '-' then s.documentMark .documentStart
  else if s.cursor.atDocumentMark '.' then s.documentMark .documentEnd
  else if x = '[' then s.bracketOpen .sequenceOpen
  else if x = '\x7b' then s.bracketOpen .mappingOpen
  else if x = ']' then s.bracketClose .sequenceClose
  else if x = '\x7d' then s.bracketClose .mappingClose
  else if x = ',' then s.commaMark
  else if x = '-' && atGap r then s.entryMark
  else if x = '?' && (s.inFlow || atGap r) then s.keyMark
  else if x = ':' && (s.inFlow || atGap r) then s.valueMark
  else if x = '*' then s.nameMark .reference
  else if x = '&' then s.nameMark .anchor
  else if x = '!' then s.tagMark
  else if x = '|' && !s.inFlow then s.block true
  else if x = '>' && !s.inFlow then s.block false
  else if x = '\'' || x = '"' then s.quoted x
  else if beginsPlain s.inFlow (x :: r) then s.plain
  else none

/-- Reads all tokens. -/
def run (fuel : Nat) (s : Scanner) : Option (Array Token) :=
  match fuel with
  | 0 => none
  | fuel + 1 => do
    let s := s.skipToToken (s.cursor.rest.length + 1)
    let s ← s.dropStalePlaces
    let s := s.closeBlocks s.cursor.column
    match s.cursor.rest with
    | [] =>
      let s ← (s.closeBlocks (-1)).dropKeyPlace
      return s.tokens.push .streamEnd
    | x :: r =>
      let s ← s.next x r
      s.run fuel

end Scanner

/-- Is the character allowed in a YAML text? -/
def isAllowed (c : Char) : Bool :=
  let n := c.toNat
  n = 9 || n = 10 || n = 13 || (0x20 ≤ n && n ≤ 0x7E) || n = 0x85 ||
    (0xA0 ≤ n && n ≤ 0xD7FF) || (0xE000 ≤ n && n ≤ 0xFFFD) || 0x10000 ≤ n

/-- The tokens of a text. A byte order mark at its start does not count. -/
def Token.scan? (t : Text) : Option (Array Token) :=
  let t := if t.head?.map Char.toNat = some 0xFEFF then t.tail else t
  if t.all isAllowed then (Scanner.start t).run (t.length + 2) else none

end Pagewright.Yaml
