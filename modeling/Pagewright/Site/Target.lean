import Pagewright.Site.Content

/-! # `Site.Target`: which documents a site has, and where they are written to

Every page and every content file is a document, except for the pages that are made for contents and the
global contents. A document is written into a directory of its own, whose name is its route (`pageTarget`,
`contentTarget`).
-/

namespace Pagewright.Site

/-! ## Targets -/

/-- The name of the file of a document in its directory. -/
def indexName : Text := "index.html".toList

/-- Where a page is written to. -/
def pageTarget (page : Path) : Path :=
  let relative := page.relativeTo SitePath.pages
  if relative.stem? = some "index".toList then relative
  else (relative.withExtension []).joinText indexName

/-- Where the document of a content file is written to. -/
def contentTarget (content : Path) : Path :=
  ((content.relativeTo SitePath.content).withExtension []).joinText indexName

/-! ## Documents -/

/-- A document of a site. -/
structure Job where
  source : Path
  target : Path
  /-- Is it made from a content file? -/
  isContent : Bool
deriving DecidableEq, Inhabited

/-- Has a file an extension? The case of letters does not count. -/
def hasExtension (extension : Text) (p : Path) : Bool :=
  (p.extension?.map (Text.sameIgnoringAsciiCase extension)).getD false

/-- Is a page a document of its own? -/
def isPage (p : Path) : Bool :=
  hasExtension "html".toList p && p.fileName? ≠ some SitePath.contentTemplate

/-- Is a content file a document of its own? -/
def isContent (p : Path) : Bool := hasExtension "md".toList p && !SitePath.globals.isPrefixOf p

/-- The document that a page is. -/
def pageJob (p : Path) : Job := ⟨p, pageTarget p, false⟩

/-- The document that is made from a content file. -/
def contentJob (p : Path) : Job := ⟨p, contentTarget p, true⟩

variable {σ : Type} [Storage σ]

/-- The documents of a site, in the order in which they are made. -/
def jobs (store : σ) : Except StorageError (List Job) := do
  let pages ← Storage.walk store SitePath.pages
  let contents ← Storage.walk store SitePath.content
  return (pages.filter isPage).map pageJob ++ (contents.filter isContent).map contentJob

/-- Makes a document. -/
def makeJob (job : Job) : Work σ Text :=
  if job.isContent then processContent job.source else processFile job.source none

end Pagewright.Site
