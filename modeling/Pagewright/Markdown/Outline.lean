import Pagewright.Markdown.Leaf

/-! # `Markdown.Outline`: the blocks of a document, line by line

An `Outline` is what is known of a document above a line: the containers that are open, each with the blocks
in it so far, the finished blocks, and the definitions that were met. `Outline.read` reads the next block of
a list of lines; `outline` reads them all.

A list goes on with items that are marked alike. It is loose if a blank line stands between two of its items
or between two blocks of an item. An item that begins with a blank line has no second one.
-/

namespace Pagewright.Markdown

/-- A container that is open, and the blocks in it so far, the latest first. -/
structure Frame where
  container : Container
  blocks : List Block
deriving Inhabited

/-- What is known of a document above a line. -/
structure Outline where
  /-- The open containers, the innermost first. -/
  frames : List Frame
  /-- The finished blocks, the latest first. -/
  blocks : List Block
  /-- Was the line above blank, where that matters to a list? -/
  lastBlank : Bool
  /-- Did an item begin with a blank line? -/
  emptyItem : Bool
  definitions : List (Text × Target)
deriving Inhabited

namespace Outline

/-- What is known at the start of a document. -/
def start : Outline := ⟨[], [], false, false, []⟩

/-- The open containers, the outermost first. -/
def containers (o : Outline) : List Container := (o.frames.map (·.container)).reverse

/-- Puts a block behind the others in the innermost container. -/
def append (o : Outline) (b : Block) : Outline :=
  match o.frames with
  | [] => { o with blocks := b :: o.blocks }
  | f :: outer => { o with frames := { f with blocks := b :: f.blocks } :: outer }

/-- Opens a container in the innermost one. -/
def push (o : Outline) (c : Container) : Outline := { o with frames := ⟨c, []⟩ :: o.frames }

/-- Closes the innermost container. -/
def pop (o : Outline) : Outline :=
  match o.frames with
  | [] => o
  | f :: outer =>
    let closed := append { o with frames := outer } (f.container.block f.blocks.reverse)
    match f.container with
    | .list _ true => { closed with emptyItem := false }
    | _ => closed

/-- Closes the innermost containers until `n` are open. -/
def popTo (n : Nat) (o : Outline) : Outline := (o.frames.length - n).repeat pop o

/-! ## Lists -/

/-- Closes an item that began with two blank lines. -/
def finishEmptyItem (o : Outline) : Outline :=
  let closed := match o.frames with
    | ⟨.item _, _⟩ :: _ => if o.emptyItem && o.lastBlank then o.pop else o
    | _ => o
  { closed with emptyItem := false }

/-- The innermost list, which the item that is open lies in, is loose if the line above is blank. -/
def loosenAround (o : Outline) : Outline :=
  if o.lastBlank then
    match o.frames with
    | item :: ⟨.list marker _, blocks⟩ :: outer =>
      { o with frames := item :: ⟨.list marker false, blocks⟩ :: outer, lastBlank := false }
    | _ => { o with lastBlank := false }
  else o

/-- Closes a list that no item follows. -/
def finishList (o : Outline) : Outline :=
  let o := o.finishEmptyItem
  match o.frames with
  | ⟨.list _ _, _⟩ :: _ => o.pop.loosenAround
  | _ => o.loosenAround

/-- Opens a list. -/
def pushList (o : Outline) (marker : ListMarker) : Outline :=
  { o.push (.list marker true) with lastBlank := false }

/-- Goes on with the innermost list, or opens one, for an item that is marked so. -/
def continueList (o : Outline) (marker : ListMarker) : Outline :=
  let o := o.finishEmptyItem
  match o.frames with
  | ⟨.list own tight, blocks⟩ :: outer =>
    if own.delimiter = marker.delimiter then
      { o with frames := ⟨.list own (tight && !o.lastBlank), blocks⟩ :: outer, lastBlank := false }
    else o.finishList.pushList marker
  | [] => o.pushList marker
  | _ => o.finishList.pushList marker

/-! ## Lines -/

/-- Opens the containers that begin on a line; nothing is left of the line behind the mark of an item that
begins with a blank line. The number bounds how many there are. -/
def openContainers : Nat → Outline → LineCursor → Outline × Option LineCursor
  | 0, o, c => (o, some c)
  | fuel + 1, o, c =>
    let (indent, own) := c.takeUpTo 4
    if 4 ≤ indent then (o, some c)
    else match listItem? own indent with
      | some (marker, width, behind) =>
        let opened := (o.continueList marker).push (.item width)
        -- nothing else can begin on the line of an empty item
        if isBlankText behind.rest then ({ opened with emptyItem := true }, none)
        else openContainers fuel opened behind
      | none =>
        match own.quoteMark? with
        | some behind => openContainers fuel (o.finishList.push .quote) behind
        | none => (o, some c)

/-- A blank line. Nothing lies deeper in an item that has begun with two of them, so that its indentation
does not count any more. -/
def blankLine (o : Outline) : Outline :=
  match o.frames with
  | ⟨.quote, _⟩ :: _ => o
  | ⟨.item indent, blocks⟩ :: outer =>
    { o with frames := ⟨.item (if o.emptyItem then 0 else indent), blocks⟩ :: outer, lastBlank := true }
  | _ => { o with lastBlank := true }

/-- Reads the block, the definition or the blank line that begins at the cursor. -/
def readOwn (o : Outline) (c : LineCursor) (l : Line) (rest : List Line) : Outline × List Line :=
  if isBlankText c.rest then (o.blankLine, rest)
  else
    let o := o.finishList
    let (indent, own) := c.takeUpTo 4
    if indent = 4 then
      let (b, lastBlank, left) := readIndented o.containers own l rest
      ({ o.append b with lastBlank }, left)
    else match readDefinition? o.containers own.rest rest with
      | some (label, target, left) => ({ o with definitions := o.definitions ++ [(label, target)] }, left)
      | none =>
        let (b, left) := readLeaf o.containers c.pending indent own l rest
        (o.append b, left)

/-- Reads what begins on a line; what is left. -/
def read (o : Outline) (l : Line) (rest : List Line) : Outline × List Line :=
  -- the containers that the line does not go on with are closed
  let (n, c) := Container.enterAll o.containers (.ofText l.text)
  match openContainers (l.text.length + 1) (o.popTo n) c with
  | (opened, some own) => opened.readOwn own l rest
  | (opened, none) => (opened, rest)

/-- Reads lines; the number bounds how many there are. -/
def readAll : Nat → Outline → List Line → Outline
  | 0, o, _ => o
  | _ + 1, o, [] => o
  | fuel + 1, o, l :: rest =>
    let (next, left) := o.read l rest
    readAll fuel next left

end Outline

/-- The blocks of a document and the definitions in it, of which the first for a label counts. -/
def outline (t : Text) : List Block × List (Text × Target) :=
  let source := lines t
  let o := (Outline.start.readAll source.length source).popTo 0
  (o.blocks.reverse, o.definitions)

end Pagewright.Markdown
