import Pagewright.Markdown.Link
import Pagewright.Markdown.Outline

/-! # `Markdown.Event`: a document as a row of events

A document is read as a list of events: an element opens or closes, or a text, code, HTML or a break comes.
The paragraphs of a tight list are not elements.
-/

namespace Pagewright.Markdown

/-- An element that other events lie in. -/
inductive Element where
  | paragraph
  /-- A heading, which may have a name for links. -/
  | heading (level : Nat) (id : Option Text)
  | quote
  | code (info : Text)
  | html
  | list (start : Option Nat)
  | item
  | table (columns : List Alignment)
  | tableHead
  | tableRow
  | tableCell
  | emphasis
  | strong
  | strikethrough
  | link (mail : Bool) (target : Target)
  | image (target : Target)
deriving DecidableEq, Inhabited

/-- What comes next in a document. -/
inductive Event where
  | opens (e : Element)
  | closes (e : Element)
  | text (t : Text)
  | code (t : Text)
  | html (t : Text)
  | inlineHtml (t : Text)
  | softBreak
  | hardBreak
  | rule
deriving DecidableEq, Inhabited

/-- The events of an element around those within it. -/
def Element.around (e : Element) (inner : List Event) : List Event := .opens e :: inner ++ [.closes e]

/-! ## Running text -/

mutual

/-- The events of a piece of running text. -/
def Inline.events : Inline → List Event
  | .text t => [.text t]
  | .code t => [.code t]
  | .html t => [.inlineHtml t]
  | .softBreak => [.softBreak]
  | .hardBreak => [.hardBreak]
  | .emphasis inner => Element.emphasis.around (Inline.eventsOfAll inner)
  | .strong inner => Element.strong.around (Inline.eventsOfAll inner)
  | .strikethrough inner => Element.strikethrough.around (Inline.eventsOfAll inner)
  | .link mail target inner => (Element.link mail target).around (Inline.eventsOfAll inner)
  | .image target inner => (Element.image target).around (Inline.eventsOfAll inner)

/-- The events of pieces of running text. -/
def Inline.eventsOfAll : List Inline → List Event
  | [] => []
  | i :: rest => i.events ++ Inline.eventsOfAll rest

end

/-! ## Blocks -/

/-- The events of running text. -/
def textEvents (s : Surroundings) (source : List Line) : List Event :=
  Inline.eventsOfAll (runningText s source)

/-- The events of the cells of a row. -/
def cellEvents (s : Surroundings) (row : List Line) : List Event :=
  row.flatMap fun cell => Element.tableCell.around (textEvents { s with inTable := true } [cell])

mutual

/-- The events of a block; in a tight list a paragraph is no element. -/
def Block.events (s : Surroundings) (tight : Bool) : Block → List Event
  | .paragraph source =>
    if tight then textEvents s source else Element.paragraph.around (textEvents s source)
  | .heading level source => (Element.heading level none).around (textEvents s source)
  | .rule => [.rule]
  | .code info body => (Element.code info).around [.text body]
  | .html body => Element.html.around [.html body]
  | .table columns head rows =>
    (Element.table columns).around
      (Element.tableHead.around (cellEvents s head) ++
        rows.flatMap fun row => Element.tableRow.around (cellEvents s row))
  | .quote blocks => Element.quote.around (Block.eventsOfAll s false blocks)
  | .list start isTight items => (Element.list start).around (Block.eventsOfAll s isTight items)
  | .item blocks => Element.item.around (Block.eventsOfAll s tight blocks)

/-- The events of blocks. -/
def Block.eventsOfAll (s : Surroundings) (tight : Bool) : List Block → List Event
  | [] => []
  | b :: rest => b.events s tight ++ Block.eventsOfAll s tight rest

end

/-- The events of a document. -/
def events (t : Text) : List Event :=
  let (blocks, definitions) := outline t
  Block.eventsOfAll ⟨false, definitions⟩ false blocks

end Pagewright.Markdown
