import Pagewright.Condition.Block
import Pagewright.Json.Writer
import Pagewright.Markdown.Html
import Pagewright.Site.ContentPage
import Pagewright.Site.Page

/-! # `Site.Content`: making the document of a content file

The body of a content file is rendered and put in the place that its page keeps for it. Scripts on the page
find the table of contents and the frontmatter in an element (`staticElement`) and in the head
(`headScript`), both as JSON between single quotes.
-/

namespace Pagewright.Site

open Markdown

/-! ## Data for scripts -/

/-- JSON for a place between single quotes. -/
def singleQuoted (v : Json) : Text := Text.replaceAll ['\''] ['\\', '\''] v.compact

/-- A table of contents for scripts. -/
def tocJson (toc : List TocEntry) : Json := .array (toc.map TocEntry.toJson)

/-- The element that keeps the data of a document. -/
def staticElement (toc : List TocEntry) (frontmatter : Fields) : Text :=
  "<div id='static-content' style='display:none;' data-toc='".toList ++ singleQuoted (tocJson toc) ++
    "' data-frontmatter='".toList ++ singleQuoted (.object frontmatter) ++ "'></div>".toList

/-- The script that gives the data of a document to others. -/
def headScript (toc : List TocEntry) (frontmatter : Fields) : Text :=
  "<script>window.toc = JSON.parse('".toList ++ singleQuoted (tocJson toc) ++
    "'); window.frontmatter=JSON.parse('".toList ++ singleQuoted (.object frontmatter) ++
    "');</script>".toList

/-! ## The document -/

/-- The mark for the table of contents in a body. -/
def tocMark : Text := "[toc]".toList

/-- The mark for the element with the data of a document. -/
def elementMark : Text := "\x7bstatic_content_element\x7d".toList

/-- The mark for the rendered body. -/
def contentMark : Text := "\x7bcontent\x7d".toList

/-- The end of the head of a page. -/
def headEnd : Text := "</head>".toList

/-- A body as HTML; the first mark for a table of contents in it is filled in before. -/
def renderBody (toc : List TocEntry) (body : Text) : Text :=
  render (Text.replaceFirst tocMark (tocMarkdown toc) body)

/-- A page with the data and the rendered body of a document in the places that it keeps for them. -/
def placeContent (toc : List TocEntry) (frontmatter : Fields) (content page : Text) : Text :=
  Text.replaceFirst contentMark content
    (Text.replaceFirst headEnd (headScript toc frontmatter ++ '\n' :: headEnd)
      (Text.replaceFirst elementMark (staticElement toc frontmatter) page))

/-- A page with the frontmatter of a document filled in. -/
def fillFrontmatter (frontmatter : Fields) (page : Text) : Text :=
  replaceFrontmatter frontmatter
    (Condition.resolveBlocks frontmatter "frontmatter".toList page)

variable {σ : Type} [Storage σ]

/-- The content file at a path. -/
def document (site : Site σ) (p : Path) : Except TemplateError Document := do
  match Document.parse? (← site.read p) with
  | some d => return d
  | none => throw (.frontmatter p)

/-- Makes the document of a content file. -/
def processContent (p : Path) : Work σ Text := do
  let d ← look fun site => site.document p
  let page ← look fun site => site.pageForContent p
  let html ← processFile page (some d.attributes)
  let body := Text.trim d.body
  let toc := tocEntries body
  let filled := placeContent toc d.attributes (renderBody toc body) (fillFrontmatter d.attributes html)
  -- the filled in texts may hold partials of their own
  look fun site => site.expandIncludes (some d.attributes) filled

end Pagewright.Site
