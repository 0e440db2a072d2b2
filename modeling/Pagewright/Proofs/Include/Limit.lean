import Pagewright.Proofs.Include.Expansion
import Pagewright.Storage.Memory

/-!
# Raising the limit for includes

Includes may be nested as deep as the settings allow. The expansion is described here as it is carried out: the depth
counts up with every partial that is opened, and nothing but the limit keeps it from growing. Three things live here:

* the expansions that come to an end, as derivations (`Site.Expands`);
* every text has an expansion that comes to an end, with the result that `expandIncludes` gives
  (`Site.expands_iff`);
* an expansion that does not fail at the limit is one under every greater limit (`Site.Expands.withLimit`), so raising
  the limit changes no answer (`Site.expandIncludes_withLimit`).
-/

namespace Pagewright.Site

variable {σ : Type} [Storage σ] {site : Site σ} {frontmatter : Option Fields} {t before rest source template : Text}
  {e : Element} {result : Except TemplateError Text} {depth d d' : ℕ}

/-! ## Expansions that come to an end -/

/-- The expansion of a text at a depth comes to an end, with a result: elements are replaced one after the other, each
by its partial, which is expanded one level deeper, and the first error is the result. -/
inductive Expands (site : Site σ) (frontmatter : Option Fields) : ℕ → Text → Except TemplateError Text → Prop
  | done {depth : ℕ} {t : Text} (h : Element.find? "include".toList t = none) : Expands site frontmatter depth t (.ok t)
  | kept {depth : ℕ} {t before rest : Text} {e : Element} {result : Except TemplateError Text}
      (h : Element.find? "include".toList t = some (before, e, rest)) (hsource : e.attribute? "src".toList = none)
      (hrest : Expands site frontmatter depth rest result) :
      Expands site frontmatter depth t (result.map fun tail => before ++ (e.text ++ tail))
  | tooDeep {depth : ℕ} {t before rest source : Text} {e : Element}
      (h : Element.find? "include".toList t = some (before, e, rest)) (hsource : e.attribute? "src".toList = some source)
      (hdepth : site.settings.maxDepth ≤ depth) :
      Expands site frontmatter depth t (.error (.depthExceeded source site.settings.maxDepth))
  | unreadable {depth : ℕ} {t before rest source : Text} {e : Element} {err : TemplateError}
      (h : Element.find? "include".toList t = some (before, e, rest)) (hsource : e.attribute? "src".toList = some source)
      (hdepth : depth < site.settings.maxDepth) (hread : site.read (SitePath.includes.joinText source) = .error err) :
      Expands site frontmatter depth t (.error err)
  | failed {depth : ℕ} {t before rest source template : Text} {e : Element} {err : TemplateError}
      (h : Element.find? "include".toList t = some (before, e, rest)) (hsource : e.attribute? "src".toList = some source)
      (hdepth : depth < site.settings.maxDepth) (hread : site.read (SitePath.includes.joinText source) = .ok template)
      (hinner : Expands site frontmatter (depth + 1) (site.fillPartial frontmatter e template) (.error err)) :
      Expands site frontmatter depth t (.error err)
  | replaced {depth : ℕ} {t before rest source template inner : Text} {e : Element}
      {result : Except TemplateError Text}
      (h : Element.find? "include".toList t = some (before, e, rest)) (hsource : e.attribute? "src".toList = some source)
      (hdepth : depth < site.settings.maxDepth) (hread : site.read (SitePath.includes.joinText source) = .ok template)
      (hinner : Expands site frontmatter (depth + 1) (site.fillPartial frontmatter e template) (.ok inner))
      (hrest : Expands site frontmatter depth rest result) :
      Expands site frontmatter depth t (result.map fun tail => before ++ (inner ++ tail))

/-- An element that names no partial stays as it is. -/
theorem expandIncludesWithin_of_find? (h : Element.find? "include".toList t = some (before, e, rest))
    (hsource : e.attribute? "src".toList = none) (n : ℕ) :
    site.expandIncludesWithin frontmatter n t =
      (site.expandIncludesWithin frontmatter n rest).map fun tail => before ++ (e.text ++ tail) := by
  cases n <;>
  · rw [expandIncludesWithin, replaceElementsM_eq_bind_of_find? h, hsource]
    rfl

/-- The depth that is left determines the result. -/
theorem Expands.expandIncludesWithin_eq (h : Expands site frontmatter depth t result) :
    site.expandIncludesWithin frontmatter (site.settings.maxDepth - depth) t = result := by
  induction h with
  | done h => exact expandIncludesWithin_of_includeFree (includeFree_of_find?_eq_none h) _
  | kept h hsource _ ih => rw [expandIncludesWithin_of_find? h hsource, ih]
  | tooDeep h hsource hdepth =>
    rw [Nat.sub_eq_zero_of_le hdepth]
    exact expandIncludesWithin_zero_of_find? h hsource
  | unreadable h hsource hdepth hread =>
    obtain ⟨n, hn⟩ := Nat.exists_eq_add_one_of_ne_zero (Nat.sub_ne_zero_of_lt hdepth)
    rw [hn, expandIncludesWithin_succ_of_find? h hsource, hread]
    rfl
  | @failed depth _ _ _ _ _ _ _ h hsource hdepth hread _ ih =>
    have hn : site.settings.maxDepth - depth = site.settings.maxDepth - (depth + 1) + 1 := by omega
    rw [hn, expandIncludesWithin_succ_of_find? h hsource, hread]
    simp only [Except.bind, ih]
  | @replaced depth _ _ _ _ _ _ _ _ h hsource hdepth hread _ _ ihinner ihrest =>
    have hn : site.settings.maxDepth - depth = site.settings.maxDepth - (depth + 1) + 1 := by omega
    rw [hn] at ihrest ⊢
    rw [expandIncludesWithin_succ_of_find? h hsource, hread]
    simp only [Except.bind, ihinner, ihrest]

/-- Where partials can be expanded one level deeper, so can texts: what is behind an element is shorter. -/
private theorem exists_expands_of_partials
    (hpartials : depth < site.settings.maxDepth → ∀ t, ∃ result, Expands site frontmatter (depth + 1) t result)
    (t : Text) : ∃ result, Expands site frontmatter depth t result := by
  induction hlen : t.length using Nat.strong_induction_on generalizing t with
  | _ len ih =>
    cases hfind : Element.find? "include".toList t with
    | none => exact ⟨_, .done hfind⟩
    | some found =>
      obtain ⟨before, e, rest⟩ := found
      obtain ⟨result, hrest⟩ := ih rest.length (hlen ▸ Element.length_rest_lt_of_find? hfind) rest rfl
      cases hsource : e.attribute? "src".toList with
      | none => exact ⟨_, .kept hfind hsource hrest⟩
      | some source =>
        by_cases hdepth : depth < site.settings.maxDepth
        · cases hread : site.read (SitePath.includes.joinText source) with
          | error err => exact ⟨_, .unreadable hfind hsource hdepth hread⟩
          | ok template =>
            obtain ⟨inner, hinner⟩ := hpartials hdepth (site.fillPartial frontmatter e template)
            cases inner with
            | error err => exact ⟨_, .failed hfind hsource hdepth hread hinner⟩
            | ok inner => exact ⟨_, .replaced hfind hsource hdepth hread hinner hrest⟩
        · exact ⟨_, .tooDeep hfind hsource (not_lt.1 hdepth)⟩

/-- Every expansion comes to an end: a partial has one level less than the text that includes it. -/
theorem exists_expands (site : Site σ) (frontmatter : Option Fields) (depth : ℕ) (t : Text) :
    ∃ result, Expands site frontmatter depth t result := by
  induction hleft : site.settings.maxDepth - depth generalizing depth t with
  | zero => exact exists_expands_of_partials (fun hdepth => by omega) t
  | succ n ih => exact exists_expands_of_partials (fun _ t => ih (depth + 1) t (by omega)) t

/-- The expansion that comes to an end has the result that is computed, and no other one. -/
theorem expands_iff :
    Expands site frontmatter depth t result ↔
      site.expandIncludesWithin frontmatter (site.settings.maxDepth - depth) t = result := by
  refine ⟨Expands.expandIncludesWithin_eq, ?_⟩
  rintro rfl
  obtain ⟨result, h⟩ := exists_expands site frontmatter depth t
  rwa [h.expandIncludesWithin_eq]

/-- An expansion fails because a partial cannot be read, or at the limit. -/
theorem Expands.error_cases {err : TemplateError} (h : Expands site frontmatter depth t (.error err)) :
    (∃ source, err = .depthExceeded source site.settings.maxDepth) ∨ ∃ failure, err = .storage failure := by
  generalize hresult : (.error err : Except TemplateError Text) = result at h
  have of_map : ∀ {result : Except TemplateError Text} {f : Text → Text}, .error err = result.map f →
      .error err = result := by
    intro result f hmap
    cases result with
    | error err' => exact hmap
    | ok out => cases hmap
  induction h with
  | done => cases hresult
  | kept _ _ _ ih => exact ih (of_map hresult)
  | tooDeep => exact Or.inl ⟨_, Except.error.inj hresult⟩
  | @unreadable _ _ _ _ source _ err' _ _ _ hread =>
    rw [Site.read] at hread
    cases hstore : Storage.read site.store (SitePath.includes.joinText source) with
    | ok template =>
      rw [hstore] at hread
      cases hread
    | error failure =>
      rw [hstore] at hread
      exact Or.inr ⟨failure, (Except.error.inj hresult).trans (Except.error.inj hread).symm⟩
  | failed _ _ _ _ _ ih => exact ih hresult
  | replaced _ _ _ _ _ _ _ ihrest => exact ihrest (of_map hresult)

/-! ## Another limit -/

/-- The site with another limit for includes. -/
def withLimit (site : Site σ) (limit : ℕ) : Site σ :=
  { site with settings := { site.settings with maxDepth := limit } }

/-- The result is not the error for includes that are nested too deep. -/
def IsSettled (result : Except TemplateError Text) : Prop := ∀ source limit, result ≠ .error (.depthExceeded source limit)

theorem isSettled_ok (t : Text) : IsSettled (.ok t) := by
  intro source limit h
  cases h

theorem IsSettled.of_map {f : Text → Text} (h : IsSettled (result.map f)) : IsSettled result := by
  rintro source limit rfl
  exact h source limit rfl

/-- An expansion looks at the limit only to see that it has not reached it. So one that does not fail there is the
same under every greater limit. -/
theorem Expands.withLimit (h : Expands (site.withLimit d) frontmatter depth t result) (hd : d ≤ d')
    (hresult : IsSettled result) : Expands (site.withLimit d') frontmatter depth t result := by
  induction h with
  | done h => exact .done h
  | kept h hsource _ ih => exact .kept h hsource (ih hresult.of_map)
  | tooDeep => exact absurd rfl (hresult _ _)
  | unreadable h hsource hdepth hread => exact .unreadable h hsource (hdepth.trans_le hd) hread
  | failed h hsource hdepth hread _ ih => exact .failed h hsource (hdepth.trans_le hd) hread (ih hresult)
  | replaced h hsource hdepth hread _ _ ihinner ihrest =>
    exact .replaced h hsource (hdepth.trans_le hd) hread (ihinner (isSettled_ok _)) (ihrest hresult.of_map)

/-- The expansion of includes comes to an end for every text, storage and limit, with a text, an error of the storage
or the error for includes that are nested too deep. Raising the limit changes only the last of these. -/
theorem expandIncludes_withLimit (site : Site σ) (frontmatter : Option Fields) (t : Text) :
    (∀ limit result, Expands (site.withLimit limit) frontmatter 0 t result ↔
      (site.withLimit limit).expandIncludes frontmatter t = result) ∧
    (∀ limit err, (site.withLimit limit).expandIncludes frontmatter t = .error err →
      (∃ source, err = .depthExceeded source limit) ∨ ∃ failure, err = .storage failure) ∧
    ∀ d d', d ≤ d' → IsSettled ((site.withLimit d).expandIncludes frontmatter t) →
      (site.withLimit d').expandIncludes frontmatter t = (site.withLimit d).expandIncludes frontmatter t := by
  have hends : ∀ limit result, Expands (site.withLimit limit) frontmatter 0 t result ↔
      (site.withLimit limit).expandIncludes frontmatter t = result := fun limit result => expands_iff
  refine ⟨hends, ?_, ?_⟩
  · intro limit err herr
    exact ((hends limit _).2 herr).error_cases
  · intro d d' hd hsettled
    have hresult := (hends d _).2 rfl
    exact (hends d' _).1 (hresult.withLimit hd hsettled)

/-! ### A partial that is missing -/

/-- A site with a partial that has a slot and includes another partial, which is not there. -/
def incompleteSite : Site MemoryStore where
  store := .ofList [(⟨"includes/p".toList⟩, "\x7bslot\x7d<include src=\"q\"/>".toList), (⟨"includes/r".toList⟩, ['x'])]
  settings := SiteSettings.default
  collections := []

/-- The include in the slot is as deep as the one that is missing. With one level it fails at the limit, and from two
levels on it is the missing partial that is the error. -/
theorem expandIncludes_incompleteSite :
    let t := "<include src=\"p\"><include src=\"r\"/></include>".toList
    let missing : TemplateError := .storage (MemoryStore.notFound (SitePath.includes.joinText ['q']))
    (incompleteSite.withLimit 1).expandIncludes none t = .error (.depthExceeded ['r'] 1) ∧
      (2 ≤ 9 ∧ IsSettled ((incompleteSite.withLimit 2).expandIncludes none t)) ∧
      (incompleteSite.withLimit 2).expandIncludes none t = .error missing ∧
      (incompleteSite.withLimit 9).expandIncludes none t = .error missing := by
  intro t missing
  have hone : (incompleteSite.withLimit 1).expandIncludes none t = .error (.depthExceeded ['r'] 1) := by decide +kernel
  have htwo : (incompleteSite.withLimit 2).expandIncludes none t = .error missing := by decide +kernel
  have hsettled : IsSettled ((incompleteSite.withLimit 2).expandIncludes none t) := by
    rw [htwo]
    intro source limit
    simp [missing]
  have hnine := (expandIncludes_withLimit incompleteSite none t).2.2 2 9 (by decide) hsettled
  exact ⟨hone, ⟨by decide, hsettled⟩, htwo, hnine.trans htwo⟩

end Pagewright.Site
