import Pagewright.Proofs.Include.Slot
import Pagewright.Proofs.Template.Form
import Pagewright.Site.Layout

/-!
# The order of attributes

The attributes of an include are filled in one after the other, and so are those of a layout. When the partial or
the layout is a form and no placeholder of one attribute begins in the value of another one, the order in which the
attributes are written does not matter, and there are no other values for which that is so in every form
(`Site.attributes_order_iff`). A placeholder in the value of an attribute is filled in when the attribute that it
names comes later (`Site.expandIncludes_captured`).
-/

namespace Pagewright

open Placeholder

namespace Site

variable {σ : Type} [Storage σ] {site : Site σ} {frontmatter : Option Fields} {e e' : Element} {before rest t t' : Text}

/-! ## Includes -/

theorem attribute?_perm (hperm : e.attributes.Perm e'.attributes) (hnodup : (e.attributes.map Prod.fst).Nodup)
    (name : Text) : e.attribute? name = e'.attribute? name :=
  Attributes.get?_perm hperm hnodup name

theorem fillPartial_perm (hperm : e.attributes.Perm e'.attributes) (hnodup : (e.attributes.map Prod.fst).Nodup)
    (hbody : e.body = e'.body) (hform : IsForm (e.attributes.map Prod.fst) t)
    (hapart : Form.Apart (site.resolveValue frontmatter) e.attributes) :
    site.fillPartial frontmatter e t = site.fillPartial frontmatter e' t := by
  obtain ⟨f, hproper, rfl⟩ := hform
  have hfold := f.foldl_replaceNamed_perm hproper hperm hnodup hapart
  unfold fillPartial
  simp only
  rw [hfold, hbody]

/-- The order of the attributes of the first include. -/
theorem expandIncludesWithin_perm (hperm : e.attributes.Perm e'.attributes)
    (hnodup : (e.attributes.map Prod.fst).Nodup) (hbody : e.body = e'.body) {source : Text}
    (ht : Element.find? "include".toList t = some (before, e, rest))
    (ht' : Element.find? "include".toList t' = some (before, e', rest))
    (hsource : e.attribute? "src".toList = some source)
    (hform : ∀ template, site.read (SitePath.includes.joinText source) = .ok template →
      IsForm (e.attributes.map Prod.fst) template)
    (hapart : Form.Apart (site.resolveValue frontmatter) e.attributes) (n : ℕ) :
    site.expandIncludesWithin frontmatter n t = site.expandIncludesWithin frontmatter n t' := by
  have hsource' : e'.attribute? "src".toList = some source := by
    rw [← attribute?_perm hperm hnodup, hsource]
  cases n with
  | zero => rw [expandIncludesWithin_zero_of_find? ht hsource, expandIncludesWithin_zero_of_find? ht' hsource']
  | succ n =>
    rw [expandIncludesWithin_succ_of_find? ht hsource, expandIncludesWithin_succ_of_find? ht' hsource']
    cases hread : site.read (SitePath.includes.joinText source) with
    | error err => rfl
    | ok template =>
      simp only [Except.bind]
      rw [fillPartial_perm hperm hnodup hbody (hform template hread) hapart]

/-! ## Layouts -/

/-- A layout in which the body has been put in, with the attributes filled in. -/
def fillLayout (e : Element) (t : Text) : Text :=
  sweepBare (e.attributes.foldl (fun t (name, value) => replaceNamed name value t) t)

theorem fillLayout_perm (hperm : e.attributes.Perm e'.attributes) (hnodup : (e.attributes.map Prod.fst).Nodup)
    (hform : IsForm (e.attributes.map Prod.fst) t) (hapart : Form.Apart id e.attributes) :
    fillLayout e t = fillLayout e' t := by
  obtain ⟨f, hproper, rfl⟩ := hform
  exact congrArg sweepBare (f.foldl_replaceNamed_perm hproper hperm hnodup hapart)

theorem composeLayout_of_attribute? {page after source : Text} (p : Path)
    (hpage : Element.findBlock? "layout".toList page = some (before, e, after))
    (hsource : e.attribute? "src".toList = some source) :
    site.composeLayout page p frontmatter =
      (site.read (SitePath.layouts.joinText source)).bind fun raw =>
        (site.expandIncludes frontmatter raw).bind fun layout =>
          (site.expandIncludes frontmatter e.body).map fun content =>
            some (fillLayout e (Text.replaceFirst slot content layout)) := by
  unfold composeLayout
  rw [hpage]
  simp only
  rw [hsource]
  rfl

theorem composeLayout_of_attribute?_eq_none {page after : Text} (p : Path)
    (hpage : Element.findBlock? "layout".toList page = some (before, e, after))
    (hsource : e.attribute? "src".toList = none) :
    site.composeLayout page p frontmatter = .error (.missingLayoutSource p) := by
  unfold composeLayout
  rw [hpage]
  simp only
  rw [hsource]
  rfl

/-- The order of the attributes of a layout. -/
theorem composeLayout_perm (hperm : e.attributes.Perm e'.attributes) (hnodup : (e.attributes.map Prod.fst).Nodup)
    (hbody : e.body = e'.body) {page page' after before' after' : Text} (p : Path)
    (hpage : Element.findBlock? "layout".toList page = some (before, e, after))
    (hpage' : Element.findBlock? "layout".toList page' = some (before', e', after'))
    (hform : ∀ source raw layout content, e.attribute? "src".toList = some source →
      site.read (SitePath.layouts.joinText source) = .ok raw → site.expandIncludes frontmatter raw = .ok layout →
      site.expandIncludes frontmatter e.body = .ok content →
      IsForm (e.attributes.map Prod.fst) (Text.replaceFirst slot content layout))
    (hapart : Form.Apart id e.attributes) :
    site.composeLayout page p frontmatter = site.composeLayout page' p frontmatter := by
  have hsame := attribute?_perm hperm hnodup "src".toList
  cases hsource : e.attribute? "src".toList with
  | none =>
    rw [composeLayout_of_attribute?_eq_none p hpage hsource,
      composeLayout_of_attribute?_eq_none p hpage' (hsame.symm.trans hsource)]
  | some source =>
    rw [composeLayout_of_attribute? p hpage hsource, composeLayout_of_attribute? p hpage' (hsame.symm.trans hsource),
      ← hbody]
    cases hread : site.read (SitePath.layouts.joinText source) with
    | error err => rfl
    | ok raw =>
      simp only [Except.bind]
      cases hlayout : site.expandIncludes frontmatter raw with
      | error err => rfl
      | ok layout =>
        cases hcontent : site.expandIncludes frontmatter e.body with
        | error err => rfl
        | ok content =>
          have hfill := fillLayout_perm hperm hnodup (hform source raw layout content hsource hread hlayout hcontent) hapart
          simp only [Except.map, hfill]

/-! ## Includes and layouts -/

/-- The order of the attributes of an include or of a layout does not matter when what they are filled into is a
form and no placeholder of one attribute begins in the value of another one; and there are no other values for which
the order of two names does not matter in any form. -/
theorem attributes_order_iff (hperm : e.attributes.Perm e'.attributes) (hnodup : (e.attributes.map Prod.fst).Nodup)
    (hbody : e.body = e'.body) :
    (∀ t t' before rest source, Element.find? "include".toList t = some (before, e, rest) →
      Element.find? "include".toList t' = some (before, e', rest) → e.attribute? "src".toList = some source →
      (∀ template, site.read (SitePath.includes.joinText source) = .ok template →
        IsForm (e.attributes.map Prod.fst) template) →
      Form.Apart (site.resolveValue frontmatter) e.attributes →
      site.expandIncludes frontmatter t = site.expandIncludes frontmatter t') ∧
    (∀ page page' before before' after after' p, Element.findBlock? "layout".toList page = some (before, e, after) →
      Element.findBlock? "layout".toList page' = some (before', e', after') →
      (∀ source raw layout content, e.attribute? "src".toList = some source →
        site.read (SitePath.layouts.joinText source) = .ok raw → site.expandIncludes frontmatter raw = .ok layout →
        site.expandIncludes frontmatter e.body = .ok content →
        IsForm (e.attributes.map Prod.fst) (Text.replaceFirst slot content layout)) →
      Form.Apart id e.attributes →
      site.composeLayout page p frontmatter = site.composeLayout page' p frontmatter) ∧
    ∀ name key value : Text, IsKey name → IsKey key → name ≠ key →
      ((∀ (t w : Text), IsForm [name, key] t → Skips name w →
        replaceNamed key w (replaceNamed name value t) = replaceNamed name value (replaceNamed key w t)) ↔
        Skips key value) := by
  refine ⟨?_, ?_, ?_⟩
  · intro t t' before rest source ht ht' hsource hform hapart
    exact expandIncludesWithin_perm hperm hnodup hbody ht ht' hsource hform hapart _
  · intro page page' before before' after after' p hpage hpage' hform hapart
    exact composeLayout_perm hperm hnodup hbody p hpage hpage' hform hapart
  · intro name key value hname hkey hne
    rw [← Form.forall_comm_iff_skips hname hkey hne]
    constructor
    · intro h f w hproper hw
      exact h f.write w ⟨f, hproper, rfl⟩ hw
    · rintro h t w ⟨f, hproper, rfl⟩ hw
      exact h f w hproper hw

/-! ### Values with braces -/

/-- A partial for links. -/
def linkPartial : Text := "<a href=\"\x7bhref\x7d\">\x7blabel or 'go'\x7d</a>\x7bc\x7d".toList

/-- A layout. -/
def titleLayout : Text := "<b>\x7btitle or 'x'\x7d</b>\x7bslot\x7d\x7bhref\x7d".toList

/-- The attributes of a link. -/
def linkAttributes : Attributes :=
  [("src".toList, ['p']), ("href".toList, "/x".toList), ("label".toList, "\x7bc\x7d \x7b\x7d".toList)]

/-- The attributes of a page in the layout. -/
def titleAttributes : Attributes :=
  [("src".toList, ['l']), ("title".toList, "\x7bc\x7d".toList), ("href".toList, "/x".toList)]

/-- The site of the partial and the layout. -/
def orderSite : Site MemoryStore where
  store := .ofList [(⟨"includes/p".toList⟩, linkPartial), (⟨"layouts/l".toList⟩, titleLayout)]
  settings := .default
  collections := []

/-- Placeholders that no other attribute has the name of may stand in the values. -/
theorem attributes_order_orderSite :
    orderSite.expandIncludes none "<include src=\"p\" href=\"/x\" label=\"\x7bc\x7d \x7b\x7d\"/>".toList =
        orderSite.expandIncludes none "<include label=\"\x7bc\x7d \x7b\x7d\" href=\"/x\" src=\"p\"/>".toList ∧
      orderSite.composeLayout "<layout src=\"l\" title=\"\x7bc\x7d\" href=\"/x\">hi</layout>".toList ⟨[]⟩ none =
        orderSite.composeLayout "<layout href=\"/x\" title=\"\x7bc\x7d\" src=\"l\">hi</layout>".toList ⟨[]⟩ none := by
  constructor
  · let e : Element := ⟨"<include src=\"p\" href=\"/x\" label=\"\x7bc\x7d \x7b\x7d\"/>".toList, linkAttributes, none⟩
    let e' : Element :=
      ⟨"<include label=\"\x7bc\x7d \x7b\x7d\" href=\"/x\" src=\"p\"/>".toList, linkAttributes.reverse, none⟩
    have hperm : e.attributes.Perm e'.attributes := (List.reverse_perm linkAttributes).symm
    have hkeys : ∀ n ∈ linkAttributes.map Prod.fst, IsKey n := by decide +kernel
    have hnodup : (linkAttributes.map Prod.fst).Nodup := by decide +kernel
    have hapart : Form.Apart (orderSite.resolveValue none) linkAttributes :=
      Form.apart_of_closed hkeys (by decide +kernel)
    have hbody : e.body = e'.body := Eq.trans (b := []) rfl rfl
    have horder := @attributes_order_iff _ _ orderSite none e e' hperm hnodup hbody
    apply horder.1 _ _ [] [] ['p'] (by decide +kernel) (by decide +kernel) rfl _ hapart
    intro template hread
    obtain rfl : linkPartial = template := Except.ok.inj hread
    exact isForm_of_flat hkeys (by decide +kernel)
  · let content : Option (Text × Text) := some ("hi".toList, "</layout>".toList)
    let e : Element := ⟨"<layout src=\"l\" title=\"\x7bc\x7d\" href=\"/x\">".toList, titleAttributes, content⟩
    let e' : Element :=
      ⟨"<layout href=\"/x\" title=\"\x7bc\x7d\" src=\"l\">".toList, titleAttributes.reverse, content⟩
    have hperm : e.attributes.Perm e'.attributes := (List.reverse_perm titleAttributes).symm
    have hkeys : ∀ n ∈ titleAttributes.map Prod.fst, IsKey n := by decide +kernel
    have hnodup : (titleAttributes.map Prod.fst).Nodup := by decide +kernel
    have hapart : Form.Apart id titleAttributes := Form.apart_of_closed hkeys (by decide +kernel)
    have hbody : e.body = e'.body := Eq.trans (b := "hi".toList) rfl rfl
    have horder := @attributes_order_iff _ _ orderSite none e e' hperm hnodup hbody
    apply horder.2.1 _ _ [] [] [] [] _ (by decide +kernel) (by decide +kernel) _ hapart
    intro source raw layout body hsource hread hlayout hcontent
    obtain rfl : ['l'] = source := Option.some.inj hsource
    obtain rfl : titleLayout = raw := Except.ok.inj hread
    have hlayout' : orderSite.expandIncludes none titleLayout = .ok titleLayout := by decide +kernel
    have hcontent' : orderSite.expandIncludes none "hi".toList = .ok "hi".toList := by decide +kernel
    obtain rfl : titleLayout = layout := Except.ok.inj (hlayout'.symm.trans hlayout)
    obtain rfl : "hi".toList = body := Except.ok.inj (hcontent'.symm.trans hcontent)
    exact isForm_of_flat hkeys (by decide +kernel)

/-- A value with the placeholder of a later attribute is filled in itself, and a placeholder that stands inside of
another one comes apart when its name is filled in first. -/
theorem expandIncludes_captured :
    (partialSite "p.html".toList "\x7ba\x7d".toList).expandIncludes none
        "<include src=\"p.html\" a=\"\x7bb\x7d\" b=\"x\"/>".toList = .ok ['x'] ∧
      (partialSite "p.html".toList "\x7ba\x7d".toList).expandIncludes none
        "<include src=\"p.html\" b=\"x\" a=\"\x7bb\x7d\"/>".toList = .ok "\x7bb\x7d".toList ∧
      (partialSite "p.html".toList "\x7ba or \x7bb\x7d\x7d".toList).expandIncludes none
        "<include src=\"p.html\" a=\"1\" b=\"2\"/>".toList = .ok "1\x7d".toList ∧
      (partialSite "p.html".toList "\x7ba or \x7bb\x7d\x7d".toList).expandIncludes none
        "<include src=\"p.html\" b=\"2\" a=\"1\"/>".toList = .ok ['1'] := by
  decide +kernel

end Site

end Pagewright
