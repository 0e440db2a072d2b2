import Pagewright.Site.Include

/-! # `Site.Layout`: pages and the layouts around them

A page may name another page to stand for it, `<page src="…">`. Its `<layout src="…">body</layout>` is put
into a layout.
-/

namespace Pagewright.Site

variable {σ : Type} [Storage σ]

/-- The text of a page, or of the one that stands for it. -/
def loadPage (site : Site σ) (p : Path) : Except TemplateError Text := do
  let page ← site.read p
  match Element.find? "page".toList page with
  | some (_, e, _) =>
    match e.attribute? "src".toList with
    | some source => site.read (SitePath.pages.joinText source)
    | none => return page
  | none => return page

/-- A page inside its layout; none when the page has no layout. -/
def composeLayout (site : Site σ) (page : Text) (p : Path) (frontmatter : Option Fields) :
    Except TemplateError (Option Text) :=
  match Element.findBlock? "layout".toList page with
  | none => return none
  | some (_, block, _) =>
    match block.attribute? "src".toList with
    | none => throw (.missingLayoutSource p)
    | some source => do
      let raw ← site.read (SitePath.layouts.joinText source)
      let layout ← site.expandIncludes frontmatter raw
      let content ← site.expandIncludes frontmatter block.body
      let composed := block.attributes.foldl (fun t (name, value) => replaceNamed name value t)
        (Text.replaceFirst slot content layout)
      return some (sweepBare composed)

end Pagewright.Site
