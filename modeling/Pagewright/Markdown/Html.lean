import Pagewright.Markdown.Heading

/-! # `Markdown.Html`: a document as HTML

`writeHtml` writes a list of events as HTML. What was written so far decides where a line break is needed
(`HtmlState.atLineStart`), whether a cell of a table is one of its head, and whether the events are the text
of an image, which is written into an attribute.
-/

namespace Pagewright.Markdown

/-! ## Texts in HTML -/

/-- A text between tags. -/
def bodyText (t : Text) : Text :=
  t.flatMap fun c =>
    if c = '&' then "&amp;".toList else if c = '<' then "&lt;".toList
    else if c = '>' then "&gt;".toList else [c]

/-- A text in an attribute between double quotes. -/
def attributeText (t : Text) : Text :=
  t.flatMap fun c => if c = '"' then "&quot;".toList else bodyText [c]

/-- May the character stand in an address as it is? -/
def isAddressChar (c : Char) : Bool := c.isAlphanum || c ∈ "!#$%()*+,-./:;=?@_~".toList

/-- A byte as a percent sign and two digits. -/
def percentByte (b : UInt8) : Text :=
  let digit := fun n => (Nat.digitChar n).toUpper
  ['%', digit (b.toNat / 16), digit (b.toNat % 16)]

/-- An address in an attribute: the UTF-8 bytes of other characters are written as numbers. -/
def addressText (t : Text) : Text :=
  t.flatMap fun c =>
    if isAddressChar c then [c]
    else if c = '&' then "&amp;".toList
    else if c = '\'' then "&#x27;".toList
    else (String.utf8EncodeChar c).flatMap percentByte

/-! ## What is known while events are written -/

/-- What is known where an event is written. -/
structure HtmlState where
  /-- Is the place at the start of a line? -/
  atLineStart : Bool
  inHead : Bool
  /-- The columns of the table. -/
  columns : List Alignment
  /-- The column of the next cell. -/
  column : Nat
  /-- Within an image: how many elements are open in it. -/
  inImage : Option Nat
deriving DecidableEq, Inhabited

namespace HtmlState

/-- What is known at the start. -/
def start : HtmlState := ⟨true, false, [], 0, none⟩

/-- Writes a text. -/
def put (s : HtmlState) (t : Text) : HtmlState × Text :=
  match t.getLast? with
  | some c => ({ s with atLineStart := c = '\n' }, t)
  | none => (s, [])

/-- Writes a text at the start of a line. -/
def putLine (s : HtmlState) (t : Text) : HtmlState × Text :=
  s.put (if s.atLineStart then t else '\n' :: t)

end HtmlState

/-! ## Elements -/

/-- How the cells of a column are styled. -/
def Alignment.style : Alignment → Text
  | .none => []
  | .left => " style=\"text-align: left\"".toList
  | .center => " style=\"text-align: center\"".toList
  | .right => " style=\"text-align: right\"".toList

/-- The name of the element that a heading is. -/
def headingName (level : Nat) : Text := 'h' :: Text.ofNat level

/-- The class of code is the first word said of it. -/
def codeTag (info : Text) : Text :=
  let language := info.takeWhile (· ≠ ' ')
  if language.isEmpty then "<pre><code>".toList
  else "<pre><code class=\"language-".toList ++ attributeText language ++ "\">".toList

/-- The title of a link or an image as an attribute, from the quote before it on. -/
def titleAttribute (title : Text) : Text :=
  if title.isEmpty then [] else "\" title=\"".toList ++ attributeText title

/-- Writes an element that opens. -/
def openElement (s : HtmlState) : Element → HtmlState × Text
  | .paragraph => s.putLine "<p>".toList
  | .heading level id =>
    let linkName := match id with
      | some id => " id=\"".toList ++ attributeText id ++ ['"']
      | none => []
    s.putLine ('<' :: headingName level ++ linkName ++ ['>'])
  | .quote => s.putLine "<blockquote>\n".toList
  | .code info => s.putLine (codeTag info)
  | .html => (s, [])
  | .list none => s.putLine "<ul>\n".toList
  | .list (some n) =>
    s.putLine (if n = 1 then "<ol>\n".toList
      else "<ol start=\"".toList ++ Text.ofNat n ++ "\">\n".toList)
  | .item => s.putLine "<li>".toList
  | .table columns => { s with columns }.put "<table>".toList
  | .tableHead => { s with inHead := true, column := 0 }.put "<thead><tr>".toList
  | .tableRow => { s with column := 0 }.put "<tr>".toList
  | .tableCell =>
    let style := ((s.columns[s.column]?).map Alignment.style).getD []
    s.put ((if s.inHead then "<th".toList else "<td".toList) ++ style ++ ['>'])
  | .emphasis => s.put "<em>".toList
  | .strong => s.put "<strong>".toList
  | .strikethrough => s.put "<del>".toList
  | .link mail target =>
    s.put ("<a href=\"".toList ++ (if mail then "mailto:".toList else []) ++
      addressText target.destination ++ titleAttribute target.title ++ "\">".toList)
  | .image target =>
    { s with inImage := some 0 }.put
      ("<img src=\"".toList ++ addressText target.destination ++ "\" alt=\"".toList)

/-- Writes an element that closes. -/
def closeElement (s : HtmlState) : Element → HtmlState × Text
  | .paragraph => s.put "</p>\n".toList
  | .heading level _ => s.put ("</".toList ++ headingName level ++ ">\n".toList)
  | .quote => s.put "</blockquote>\n".toList
  | .code _ => s.put "</code></pre>\n".toList
  | .html => (s, [])
  | .list none => s.put "</ul>\n".toList
  | .list (some _) => s.put "</ol>\n".toList
  | .item => s.put "</li>\n".toList
  | .table _ => s.put "</tbody></table>\n".toList
  | .tableHead => { s with inHead := false }.put "</tr></thead><tbody>\n".toList
  | .tableRow => s.put "</tr>\n".toList
  | .tableCell =>
    { s with column := s.column + 1 }.put (if s.inHead then "</th>".toList else "</td>".toList)
  | .emphasis => s.put "</em>".toList
  | .strong => s.put "</strong>".toList
  | .strikethrough => s.put "</del>".toList
  | .link _ _ => s.put "</a>".toList
  | .image target => s.put (titleAttribute target.title ++ "\" />".toList)

/-! ## Events -/

/-- Writes an event in the text of an image, in which `nesting` elements are open. -/
def writeInImage (s : HtmlState) (nesting : Nat) : Event → HtmlState × Text
  | .opens _ => ({ s with inImage := some (nesting + 1) }, [])
  | .closes e =>
    if nesting = 0 then closeElement { s with inImage := none } e
    else ({ s with inImage := some (nesting - 1) }, [])
  | .text t => s.put (attributeText t)
  | .code t => s.put (attributeText t)
  | .inlineHtml t => s.put (attributeText t)
  | .html _ => (s, [])
  | .softBreak => s.put [' ']
  | .hardBreak => s.put [' ']
  | .rule => s.put [' ']

/-- Writes an event. -/
def writeEvent (s : HtmlState) (e : Event) : HtmlState × Text :=
  match s.inImage with
  | some nesting => writeInImage s nesting e
  | none =>
    match e with
    | .opens e => openElement s e
    | .closes e => closeElement s e
    | .text t => s.put (bodyText t)
    | .code t => s.put ("<code>".toList ++ bodyText t ++ "</code>".toList)
    | .html t => s.put t
    | .inlineHtml t => s.put t
    | .softBreak => s.put ['\n']
    | .hardBreak => s.put "<br />\n".toList
    | .rule => s.putLine "<hr />\n".toList

/-- Writes events. -/
def writeEvents (s : HtmlState) : List Event → Text
  | [] => []
  | e :: rest =>
    let (next, t) := writeEvent s e
    t ++ writeEvents next rest

/-- A list of events as HTML. -/
def writeHtml (es : List Event) : Text := writeEvents .start es

/-- A document as HTML, in which every heading can be linked to by its slug. -/
def render (t : Text) : Text := writeHtml (named (events t))

end Pagewright.Markdown
