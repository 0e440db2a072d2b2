import Pagewright.Site.Basic

/-! # `Site.ContentPage`: the page that a content is shown on

A content file has a page of its own name, or is shown on a page of its directory, or of the directory
above it, and so on.
-/

namespace Pagewright.Site

variable {σ : Type} [Storage σ]

/-- The pages for the contents of a directory of pages, best first. -/
def pageCandidates (directory : Path) : List Path :=
  let inside := [directory.joinText SitePath.contentTemplate,
    directory.joinText "index.html".toList]
  match directory.parent?, directory.fileName? with
  | some parent, some name =>
    if directory.same SitePath.pages then inside
    else inside ++ [parent.joinText (name ++ ".html".toList)]
  | _, _ => inside

/-- Looks for a page in a directory and in so many directories above it, inside the directory of the
pages. -/
def findPage (site : Site σ) : Nat → Path → Option Path
  | 0, _ => none
  | n + 1, directory =>
    if !SitePath.pages.isPrefixOf directory then none
    else match (pageCandidates directory).find? (Storage.isPresent site.store) with
      | some p => some p
      | none => directory.parent?.bind (site.findPage n)

/-- How many directories are searched. -/
def maxLookupLevels : Nat := 10

/-- The page for a content file. -/
def pageForContent (site : Site σ) (p : Path) : Except TemplateError Path :=
  let relative := p.relativeTo SitePath.content
  let direct := (SitePath.pages.join relative).withExtension "html".toList
  if Storage.isPresent site.store direct then .ok direct
  else
    let directory := match relative.parent? with
      | some parent => SitePath.pages.join parent
      | none => SitePath.pages
    match site.findPage maxLookupLevels directory with
    | some page => .ok page
    | none => .error (.pageNotFound p)

end Pagewright.Site
