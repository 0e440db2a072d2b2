import Pagewright.Markdown.Reference

/-! # `Markdown.Inline`: running text

Running text is a list of pieces, some of which hold others.
-/

namespace Pagewright.Markdown

/-- A piece of running text. -/
inductive Inline where
  | text (t : Text)
  | code (t : Text)
  | html (t : Text)
  | softBreak
  | hardBreak
  | emphasis (inner : List Inline)
  | strong (inner : List Inline)
  | strikethrough (inner : List Inline)
  /-- A link, which may lead to a mail address. -/
  | link (mail : Bool) (target : Target) (inner : List Inline)
  | image (target : Target) (inner : List Inline)
deriving Inhabited

end Pagewright.Markdown
