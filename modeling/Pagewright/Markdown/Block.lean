import Pagewright.Markdown.Line

/-! # `Markdown.Block`: the blocks of a document

A document is a list of blocks. Quotations, lists and items of lists hold blocks; the others hold lines whose
text is read later on. What a block lies in is a `Container`, which also says how the lines that belong to it
look (`Container.enter?`).
-/

namespace Pagewright.Markdown

/-- A block. Lines that stand for running text are kept as they were written. -/
inductive Block where
  | paragraph (source : List Line)
  | heading (level : Nat) (source : List Line)
  | rule
  /-- A block of code, with what is said of it behind its fence. -/
  | code (info body : Text)
  | html (body : Text)
  | table (columns : List Alignment) (head : List Line) (rows : List (List Line))
  | quote (blocks : List Block)
  /-- A list of items; one without blank lines between its items is tight. -/
  | list (start : Option Nat) (tight : Bool) (items : List Block)
  | item (blocks : List Block)
deriving Inhabited

/-! ## Containers -/

/-- What blocks can lie in. -/
inductive Container where
  | quote
  | list (marker : ListMarker) (tight : Bool)
  /-- An item, whose lines are indented by so many columns. -/
  | item (indent : Nat)
deriving DecidableEq, Inhabited

namespace Container

/-- The block that a container is, once what lies in it is known. -/
def block : Container → List Block → Block
  | .quote, blocks => .quote blocks
  | .list marker tight, items =>
    .list (if isBullet marker.delimiter then none else some marker.number) tight items
  | .item _, blocks => .item blocks

/-- Goes past what shows that a line belongs to the container. -/
def enter? : Container → LineCursor → Option LineCursor
  | .quote, c => (c.takeUpTo 3).2.quoteMark?
  | .list _ _, c => some c
  | .item indent, c =>
    let (missing, next) := c.take indent
    if missing = 0 || next.atEnd then some next else none

/-- How many of the containers, outermost first, a line belongs to, and where its own text begins. -/
def enterAll : List Container → LineCursor → Nat × LineCursor
  | [], c => (0, c)
  | container :: inner, c =>
    match container.enter? c with
    | some next =>
      let (n, own) := enterAll inner next
      (n + 1, own)
    | none => (0, c)

/-- Does a line belong to all of the containers? And where does its own text begin? -/
def enterLine (containers : List Container) (l : Line) : Bool × LineCursor :=
  let (n, c) := enterAll containers (.ofText l.text)
  (n = containers.length, c)

end Container

end Pagewright.Markdown
