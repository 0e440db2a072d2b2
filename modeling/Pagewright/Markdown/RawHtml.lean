import Pagewright.Markdown.Line

/-! # `Markdown.RawHtml`: HTML within a document

HTML is kept as it is. Within a paragraph it is one tag, comment, instruction, declaration or section of
character data (`inlineHtml?`). As a block it begins on a line of its own and ends where `HtmlBlockStart`
says. Tags are read for their form only: the names of their attributes do not matter.
-/

namespace Pagewright.Markdown

/-! ## Tags -/

/-- Is the character a blank or a line break? -/
def isGap (c : Char) : Bool := isSpace c || c = '\n' || c = '\r'

/-- May the character begin the name of an attribute? -/
def startsAttribute (c : Char) : Bool := c.isAlpha || c = '_' || c = ':'

/-- May the character follow in the name of an attribute? -/
def continuesAttribute (c : Char) : Bool := c.isAlphanum || c = '_' || c = ':' || c = '.' || c = '-'

/-- May the character stand in a value without quotes? -/
def isBareValueChar (c : Char) : Bool :=
  !isGap c && !(c = '"' || c = '\'' || c = '=' || c = '<' || c = '>' || c = '`')

/-- What follows the value of an attribute. -/
def afterValue? : Text → Option Text
  | '"' :: r => (Text.splitOnce? '"' r).map (·.2)
  | '\'' :: r => (Text.splitOnce? '\'' r).map (·.2)
  | c :: r => if isBareValueChar c then some (r.dropWhile isBareValueChar) else none
  | [] => none

/-- What follows an attribute; blanks behind an attribute without a value are left. -/
def afterAttribute? : Text → Option Text
  | c :: r =>
    if startsAttribute c then
      let behind := r.dropWhile continuesAttribute
      match behind.dropWhile isGap with
      | '=' :: value => afterValue? (value.dropWhile isGap)
      | _ => some behind
    else none
  | [] => none

/-- What follows an opening tag, read from behind its name; the number bounds that of its attributes. -/
def afterAttributes? : Nat → Text → Option Text
  | 0, _ => none
  | fuel + 1, t =>
    match t.dropWhile isGap with
    | '>' :: r => some r
    | '/' :: '>' :: r => some r
    | rest => if rest.length = t.length then none else (afterAttribute? rest).bind (afterAttributes? fuel)

/-- Is the character a letter, a digit or a dash? -/
def isTagNameChar (c : Char) : Bool := c.isAlphanum || c = '-'

/-- What follows a tag, read from behind its opening bracket. -/
def afterTag? : Text → Option Text
  | '/' :: c :: r =>
    if c.isAlpha then
      match (r.dropWhile isTagNameChar).dropWhile isSpace with
      | '>' :: rest => some rest
      | _ => none
    else none
  | c :: r => if c.isAlpha then afterAttributes? (r.length + 1) (r.dropWhile isTagNameChar) else none
  | [] => none

/-! ## Within a paragraph -/

/-- What follows the literal `p` at its first occurrence. -/
def behind? (p t : Text) : Option Text := (Text.splitFirst? p t).map (·.2)

/-- What follows a comment, read from behind its two dashes. -/
def afterComment? : Text → Option Text
  | '>' :: r => some r
  | '-' :: '>' :: r => some r
  | t => behind? "-->".toList t

/-- What follows character data: it ends at the first bracket that closes. -/
def afterCharacterData? (t : Text) : Option Text :=
  match (t.dropWhile (· ≠ ']')) with
  | ']' :: r =>
    match r.dropWhile (· = ']') with
    | '>' :: rest => some rest
    | _ => none
  | _ => none

/-- What follows HTML within a paragraph, read from behind its opening bracket. -/
def afterInlineHtml? (t : Text) : Option Text :=
  match t with
  | '?' :: r => behind? "?>".toList r
  | '!' :: '-' :: '-' :: r => afterComment? r
  | '!' :: r =>
    match Text.after? "[CDATA[".toList r with
    | some data => afterCharacterData? data
    | none =>
      match r with
      | c :: rest => if c.isAlpha then behind? ['>'] rest else none
      | [] => none
  | _ => afterTag? t

/-! ## Blocks -/

/-- Where a block of HTML ends. -/
inductive HtmlBlockStart
  /-- Behind the line that holds a text. -/
  | untilText (close : Text)
  /-- Before the next line without text. -/
  | untilBlank
deriving DecidableEq, Inhabited

/-- The names of tags whose content is kept as it is. -/
def verbatimTags : List Text := ["pre", "style", "script", "textarea"].map String.toList

/-- The names of tags that begin a block. -/
def blockTags : List Text :=
  (["address", "article", "aside", "base", "basefont", "blockquote", "body", "caption", "center", "col",
    "colgroup", "dd", "details", "dialog", "dir", "div", "dl", "dt", "fieldset", "figcaption", "figure",
    "footer", "form", "frame", "frameset", "h1", "h2", "h3", "h4", "h5", "h6", "head", "header", "hr",
    "html", "iframe", "legend", "li", "link", "main", "menu", "menuitem", "nav", "noframes", "ol",
    "optgroup", "option", "p", "param", "search", "section", "summary", "table", "tbody", "td", "tfoot",
    "th", "thead", "title", "tr", "track", "ul"] : List String).map String.toList

/-- The end of a block whose content is kept as it is, read from behind the opening bracket. -/
def verbatimEnd? (t : Text) : Option Text :=
  let name := t.takeWhile Char.isAlpha
  let ends := match t.dropWhile Char.isAlpha with
    | [] => true
    | c :: _ => isGap c || c = '>'
  match verbatimTags.find? (Text.sameIgnoringAsciiCase name) with
  | some tag => if ends then some ("</".toList ++ tag ++ ">".toList) else none
  | none =>
    if Text.startsWith "!--".toList t then some "-->".toList
    else if Text.startsWith "?".toList t then some "?>".toList
    else if Text.startsWith "![CDATA[".toList t then some "]]>".toList
    else match t with
      | '!' :: c :: _ => if c.isAlpha then some ">".toList else none
      | _ => none

/-- Does the tag of a block begin here, behind an opening bracket? -/
def startsBlockTag (t : Text) : Bool :=
  let body := match t with
    | '/' :: r => r
    | _ => t
  let ends := match body.dropWhile Char.isAlphanum with
    | [] => true
    | ' ' :: _ => true
    | '\t' :: _ => true
    | '>' :: _ => true
    | '/' :: '>' :: _ => true
    | _ => false
  ends && blockTags.any (Text.sameIgnoringAsciiCase (body.takeWhile Char.isAlphanum))

/-- The block of HTML that a line begins, if it may begin within a paragraph. -/
def interruptingHtml? : Text → Option HtmlBlockStart
  | '<' :: r =>
    match verbatimEnd? r with
    | some close => some (.untilText close)
    | none => if startsBlockTag r then some .untilBlank else none
  | _ => none

/-- The block of HTML that a line begins: a single tag of any name begins one, too. -/
def htmlBlock? (t : Text) : Option HtmlBlockStart :=
  match interruptingHtml? t, t with
  | some start, _ => some start
  | none, '<' :: r =>
    match afterTag? r with
    | some rest => if isBlankText rest then some .untilBlank else none
    | none => none
  | none, _ => none

end Pagewright.Markdown
