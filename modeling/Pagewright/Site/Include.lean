import Pagewright.Site.Resolve
import Pagewright.Template.Element

/-! # `Site.Include`: partials

`<include src="…">body</include>` stands for a partial, in which the attributes of the tag and its body
are filled in. Partials may include others, down to a depth that the settings limit.
-/

namespace Pagewright

variable {σ : Type} [Storage σ]

/-- The mark for the body. -/
def slot : Text := "\x7bslot\x7d".toList

namespace Site

/-- A partial with the attributes and the body of its tag filled in. -/
def fillPartial (site : Site σ) (frontmatter : Option Fields) (e : Element) (template : Text) :
    Text :=
  let named := e.attributes.foldl
    (fun t (name, value) => replaceNamed name (site.resolveValue frontmatter value) t) template
  sweepBare (Text.replaceAll slot e.body named)

/-- Expands the partials of a text, which may be nested so deep. -/
def expandIncludesWithin (site : Site σ) (frontmatter : Option Fields) :
    Nat → Text → Except TemplateError Text
  | 0, t => replaceElementsM "include".toList (fun e =>
      match e.attribute? "src".toList with
      | none => return none
      | some source => throw (.depthExceeded source site.settings.maxDepth)) t
  | n + 1, t => replaceElementsM "include".toList (fun e =>
      match e.attribute? "src".toList with
      | none => return none
      | some source => do
        let template ← site.read (SitePath.includes.joinText source)
        let filled := site.fillPartial frontmatter e template
        return some (← site.expandIncludesWithin frontmatter n filled)) t

/-- Expands the partials of a text. -/
def expandIncludes (site : Site σ) (frontmatter : Option Fields) (t : Text) :
    Except TemplateError Text :=
  site.expandIncludesWithin frontmatter site.settings.maxDepth t

end Site

end Pagewright
