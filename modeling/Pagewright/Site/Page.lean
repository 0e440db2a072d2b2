import Pagewright.Site.Layout
import Pagewright.Site.Loop
import Pagewright.Site.Shortcode

/-! # `Site.Page`: making a page

A page is put into its layout, and then all that it names is filled in: partials and the attributes of
the layout first, then shortcodes, loops, dumps, collections and global contents. A page without a layout
stays as it is.
-/

namespace Pagewright.Site

variable {σ : Type} [Storage σ]

/-- Makes a page. The frontmatter is that of the content for which the page is made, if it is made for
one. -/
def processFile (p : Path) (frontmatter : Option Fields) : Work σ Text := do
  let page ← look fun site => site.loadPage p
  match ← look fun site => site.composeLayout page p frontmatter with
  | none => return page
  | some composed =>
    let html ← materializeLoops (Shortcode.expand (← get) composed)
    let html ← watch fun site => site.expandLoops frontmatter html
    look fun site => do
      let html ← site.resolveCollections (site.resolveDumps html)
      return site.resolveGlobals html

end Pagewright.Site
