import Pagewright.Proofs.Template.Balance
import Pagewright.Proofs.Template.Placeholder
import Pagewright.Proofs.Template.Replacement
import Pagewright.Site.Include

/-!
# Includes, one at a time

An include is expanded by reading its partial, filling it in and expanding the includes of what comes out, one
level deeper. Four things live here:

* the elements of a text that are replaced one after the other (`replaceElementsM_eq_bind_of_find?`);
* texts without includes, which stay as they are at every depth and are the only ones that get through without
  any depth (`Site.includeFree_of_expandIncludesWithin_zero`);
* the first include of a text, which is its partial, one level deeper (`Site.expandIncludesWithin_succ_of_find?`);
* texts with includes on one level only, which get through with a depth of one
  (`Site.expandIncludesWithin_succ_of_oneLevel`).
-/

namespace Pagewright

variable {name value t before after rest : Text} {e : Element}

theorem bind_eq_ok_iff {ε α β : Type} {x : Except ε α} {f : α → Except ε β} {b : β} :
    x.bind f = .ok b ↔ ∃ a, x = .ok a ∧ f a = .ok b := by
  cases x <;> simp [Except.bind]

theorem map_eq_ok_iff {ε α β : Type} {x : Except ε α} {f : α → β} {b : β} :
    x.map f = .ok b ↔ ∃ a, x = .ok a ∧ f a = b := by
  cases x <;> simp [Except.map]

/-! ## Replacing elements one after the other -/

section Replace

variable {ε : Type} {f : Element → Except ε (Option Text)} {out : Text}

/-- The first element is replaced, and then those behind it. -/
theorem replaceElementsM_eq_bind_of_find? (h : Element.find? name t = some (before, e, rest)) :
    replaceElementsM name f t =
      (f e).bind fun replacement => (replaceElementsM name f rest).map
        fun tail => before ++ (replacement.getD e.text ++ tail) := by
  rw [replaceElementsM_of_find? h]
  rfl

/-- Elements without a replacement stay as they are. -/
theorem replaceElementsM_eq_self (h : ∀ e, .element e ∈ pieces name t → f e = .ok none) :
    replaceElementsM name f t = .ok t := by
  have hself : replaceElements name (fun _ => none) t = t := replaceElements_eq_self fun _ _ => rfl
  conv_rhs => rw [← hself]
  exact replaceElementsM_eq_pure h

/-- Where the whole succeeds, every element had its replacement. -/
theorem exists_of_replaceElementsM_eq_ok (h : replaceElementsM name f t = .ok out) :
    ∀ e, .element e ∈ pieces name t → ∃ replacement, f e = .ok replacement := by
  fun_induction pieces name t generalizing out with
  | case1 t hnone =>
    intro e he
    simp at he
  | case2 t before e rest hfind ih =>
    rw [replaceElementsM_eq_bind_of_find? hfind] at h
    cases hf : f e with
    | error err =>
      rw [hf] at h
      cases h
    | ok replacement =>
      cases htail : replaceElementsM name f rest with
      | error err =>
        rw [hf, htail] at h
        cases h
      | ok tail =>
        intro e' he'
        simp only [List.mem_cons, reduceCtorEq, Piece.element.injEq, false_or] at he'
        rcases he' with rfl | he'
        · exact ⟨replacement, hf⟩
        · exact ih htail e' he'

end Replace

/-! ## Texts without includes -/

/-- No element of the text names a partial. -/
def IncludeFree (t : Text) : Prop :=
  ∀ e, .element e ∈ pieces "include".toList t → e.attribute? "src".toList = none

theorem includeFree_of_find?_eq_none (h : Element.find? "include".toList t = none) : IncludeFree t := by
  intro e he
  rw [pieces_of_find?_eq_none h] at he
  simp at he

theorem includeFree_of_notMem (h : '<' ∉ t) : IncludeFree t :=
  includeFree_of_find?_eq_none (Element.find?_eq_none_of_notMem h)

namespace Site

variable {σ : Type} [Storage σ] {site : Site σ} {frontmatter : Option Fields} {source out template : Text} {n : ℕ}

/-- A text without includes stays as it is, at every depth. -/
theorem expandIncludesWithin_of_includeFree (h : IncludeFree t) (n : ℕ) :
    site.expandIncludesWithin frontmatter n t = .ok t := by
  cases n <;>
  · refine replaceElementsM_eq_self fun e he => ?_
    rw [h e he]
    rfl

/-- What gets through without any depth has no includes: the first one would be an error. -/
theorem includeFree_of_expandIncludesWithin_zero (h : site.expandIncludesWithin frontmatter 0 t = .ok out) :
    IncludeFree t := by
  intro e he
  obtain ⟨replacement, hf⟩ := exists_of_replaceElementsM_eq_ok h e he
  cases hsource : e.attribute? "src".toList with
  | none => rfl
  | some source =>
    rw [hsource] at hf
    cases hf

/-! ## The first include of a text -/

/-- An include that is too deep. -/
theorem expandIncludesWithin_zero_of_find? (h : Element.find? "include".toList t = some (before, e, rest))
    (hsource : e.attribute? "src".toList = some source) :
    site.expandIncludesWithin frontmatter 0 t = .error (.depthExceeded source site.settings.maxDepth) := by
  rw [expandIncludesWithin, replaceElementsM_eq_bind_of_find? h, hsource]
  rfl

/-- An include is its partial, filled in and expanded one level deeper. -/
theorem expandIncludesWithin_succ_of_find? (h : Element.find? "include".toList t = some (before, e, rest))
    (hsource : e.attribute? "src".toList = some source) (n : ℕ) :
    site.expandIncludesWithin frontmatter (n + 1) t =
      (site.read (SitePath.includes.joinText source)).bind fun template =>
        (site.expandIncludesWithin frontmatter n (site.fillPartial frontmatter e template)).bind fun inner =>
          (site.expandIncludesWithin frontmatter (n + 1) rest).map fun tail => before ++ (inner ++ tail) := by
  rw [expandIncludesWithin, replaceElementsM_eq_bind_of_find? h, hsource]
  simp only [bind]
  cases hread : site.read (SitePath.includes.joinText source) with
  | error err => rfl
  | ok template =>
    simp only [Except.bind]
    cases site.expandIncludesWithin frontmatter n (site.fillPartial frontmatter e template) <;> rfl

/-- An include gets through when its partial does, one level deeper, and so does what is behind it. -/
theorem expandIncludesWithin_succ_eq_ok_iff (h : Element.find? "include".toList t = some (before, e, rest))
    (hsource : e.attribute? "src".toList = some source) (n : ℕ) :
    site.expandIncludesWithin frontmatter (n + 1) t = .ok out ↔
      ∃ template inner tail, site.read (SitePath.includes.joinText source) = .ok template ∧
        site.expandIncludesWithin frontmatter n (site.fillPartial frontmatter e template) = .ok inner ∧
        site.expandIncludesWithin frontmatter (n + 1) rest = .ok tail ∧ out = before ++ (inner ++ tail) := by
  rw [expandIncludesWithin_succ_of_find? h hsource]
  simp only [bind_eq_ok_iff, map_eq_ok_iff]
  constructor
  · rintro ⟨template, hread, inner, hinner, tail, htail, hout⟩
    exact ⟨template, inner, tail, hread, hinner, htail, hout.symm⟩
  · rintro ⟨template, inner, tail, hread, hinner, htail, hout⟩
    exact ⟨template, hread, inner, hinner, tail, htail, hout.symm⟩

theorem foldl_replaceNamed_of_notMem (h : '\x7b' ∉ template) (attributes : Attributes) : attributes.foldl
    (fun t (name, value) => replaceNamed name (site.resolveValue frontmatter value) t) template = template := by
  induction attributes with
  | nil => rfl
  | cons a rest ih =>
    obtain ⟨name, value⟩ := a
    rw [List.foldl_cons]
    simp only [replaceNamed_of_notMem h]
    exact ih

/-- Without braces there is nothing to fill in. -/
theorem fillPartial_of_notMem (h : '\x7b' ∉ template) : site.fillPartial frontmatter e template = template := by
  have hslot : '\x7b' ∈ slot := by decide
  rw [fillPartial, foldl_replaceNamed_of_notMem h, Text.replaceAll_of_notMem hslot h, sweepBare_of_notMem h]

/-! ### Includes on one level -/

/-- Every include of the text names a partial that can be read, with the texts of the partials given, and when it is
filled in there are no more includes. -/
def OneLevel (site : Site σ) (frontmatter : Option Fields) (partialText : Text → Text) (t : Text) : Prop :=
  ∀ e, .element e ∈ pieces "include".toList t → ∀ source, e.attribute? "src".toList = some source →
    site.read (SitePath.includes.joinText source) = .ok (partialText source) ∧
      IncludeFree (site.fillPartial frontmatter e (partialText source))

/-- One level is enough for includes on one level: each of them becomes its partial, filled in. -/
theorem expandIncludesWithin_succ_of_oneLevel {partialText : Text → Text}
    (h : site.OneLevel frontmatter partialText t) (n : ℕ) :
    site.expandIncludesWithin frontmatter (n + 1) t =
      .ok (replaceElements "include".toList (fun e => (e.attribute? "src".toList).map fun source =>
        site.fillPartial frontmatter e (partialText source)) t) := by
  refine replaceElementsM_eq_pure fun e he => ?_
  cases hsource : e.attribute? "src".toList with
  | none => rfl
  | some source =>
    obtain ⟨hread, hfree⟩ := h e he source hsource
    simp only [hread, bind, Except.bind, expandIncludesWithin_of_includeFree hfree]
    rfl

/-! ### The only include of a text -/

theorem expandIncludesWithin_zero_include (h : Element.find? "include".toList t = some ([], e, []))
    (hsource : e.attribute? "src".toList = some source) :
    site.expandIncludesWithin frontmatter 0 t = .error (.depthExceeded source site.settings.maxDepth) :=
  expandIncludesWithin_zero_of_find? h hsource

theorem expandIncludesWithin_include (h : Element.find? "include".toList t = some ([], e, []))
    (hsource : e.attribute? "src".toList = some source)
    (hread : site.read (SitePath.includes.joinText source) = .ok template) (n : ℕ) :
    site.expandIncludesWithin frontmatter (n + 1) t =
      site.expandIncludesWithin frontmatter n (site.fillPartial frontmatter e template) := by
  have hnil : site.expandIncludesWithin frontmatter (n + 1) [] = .ok [] :=
    expandIncludesWithin_of_includeFree (includeFree_of_notMem (by simp)) (n + 1)
  rw [expandIncludesWithin_succ_of_find? h hsource, hread, hnil]
  simp only [Except.bind]
  cases site.expandIncludesWithin frontmatter n (site.fillPartial frontmatter e template) <;> simp [Except.map]

end Site

end Pagewright
