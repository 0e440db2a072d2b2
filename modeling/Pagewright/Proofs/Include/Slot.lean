import Pagewright.Proofs.Include.Expansion
import Pagewright.Storage.Memory

/-!
# The body of an include

The body of an include is put in at the mark of its partial, and what comes out is read two more times: bare
placeholders are replaced by their fallbacks, and includes are expanded. So the body comes through as it is
exactly when neither finds anything to do (`Site.expandIncludes_slot_iff`). The attributes of the tag do not
matter for that, since they are put in before the body is. A fallback in the body, which another tag or a layout
was to fill in, is taken for one of the partial (`Site.expandIncludes_slot_fallback`).
-/

namespace Pagewright

variable {o body before after source t : Text} {attributes : Attributes} {e : Element}

/-! ## Fallbacks in a text -/

/-- The fallback of a bare placeholder at the start of a text, if it is put in for the placeholder. -/
def bareFallback? (t : Text) : Option Text := do
  let (name, written, _) ← Placeholder.parse? ['\x7b'] Placeholder.isBareChar t
  if name ∈ reservedNames then none else written

/-- A text without fallbacks stays as it is. -/
theorem sweepBare_of_free (h : Text.Free bareFallback? t) : sweepBare t = t := by
  unfold sweepBare
  fun_induction Text.substitute _ t with
  | case1 => rfl
  | case2 c r out rest hstep _ ih =>
    have hnone := h (c :: r) List.suffix_rfl (by simp)
    cases hparse : Placeholder.parse? ['\x7b'] Placeholder.isBareChar (c :: r) with
    | none =>
      rw [hparse] at hstep
      cases hstep
    | some found =>
      obtain ⟨name, written, tail⟩ := found
      -- a placeholder is either left as it is written, or has a fallback that is put in
      have hout : out = Text.consumed (c :: r) tail ∧ rest = tail := by
        simp only [bareFallback?, hparse, Option.bind_eq_bind, Option.bind_some] at hnone
        cases written with
        | none =>
          simp only [hparse, Option.some.injEq, Prod.mk.injEq] at hstep
          exact ⟨hstep.1.symm, hstep.2.symm⟩
        | some w =>
          by_cases hname : name ∈ reservedNames
          · simp only [hparse, hname, ↓reduceIte, Option.some.injEq, Prod.mk.injEq] at hstep
            exact ⟨hstep.1.symm, hstep.2.symm⟩
          · simp [hname] at hnone
      obtain ⟨rfl, rfl⟩ := hout
      have hsuffix := Placeholder.suffix_of_parse? hparse
      rw [ih fun s hs => h s (hs.trans hsuffix), Element.consumed_append hsuffix]
  | case3 c r out rest hstep hlen ih =>
    rw [ih fun s hs => h s (hs.trans (List.suffix_cons c r))]
  | case4 c r hstep ih =>
    rw [ih fun s hs => h s (hs.trans (List.suffix_cons c r))]

/-! ## An include with a body -/

/-- The closing tag of an include, behind its `<`. -/
def includeClosing : Text := "/include>".toList

/-- Behind an opening tag, the text would be all of the body: it closes what it opens, and no more. -/
def IsIncludeBody (body : Text) : Prop :=
  Element.closing? "include".toList 0 (body ++ '<' :: includeClosing) = some (body, '<' :: includeClosing, [])

instance (body : Text) : Decidable (IsIncludeBody body) := inferInstanceAs (Decidable (_ = _))

theorem find?_include (ho : Element.Opens "include".toList o attributes) (hb : IsIncludeBody body) :
    Element.find? "include".toList (Element.written o body includeClosing) =
      some ([], ⟨'<' :: o, attributes, some (body, '<' :: includeClosing)⟩, []) :=
  Element.find?_of_opens ho hb

namespace Site

variable {σ : Type} [Storage σ] {site : Site σ} {frontmatter : Option Fields}

/-- Attributes of other names leave the mark for the body alone. -/
private theorem foldl_replaceNamed_slot (value : Text → Text) (hslot : attributes.get? "slot".toList = none)
    (hbefore : '\x7b' ∉ before) (hafter : '\x7b' ∉ after) (hafter' : '\x7d' ∉ after) :
    attributes.foldl (fun t (name, written) => replaceNamed name (value written) t) (before ++ (slot ++ after)) =
      before ++ (slot ++ after) := by
  have hmark : slot ++ after = '\x7b' :: "slot".toList ++ '\x7d' :: after := rfl
  induction attributes with
  | nil => rfl
  | cons pair rest ih =>
    obtain ⟨name, written⟩ := pair
    rw [Attributes.get?] at hslot
    split at hslot
    · cases hslot
    · next hname =>
      have hfirst : replaceNamed name (value written) (before ++ (slot ++ after)) = before ++ (slot ++ after) := by
        rw [hmark]
        exact replaceNamed_hole_of_ne hname (by decide) hbefore hafter hafter'
      rw [List.foldl_cons]
      show List.foldl _ (replaceNamed name (value written) (before ++ (slot ++ after))) rest = _
      rw [hfirst]
      exact ih hslot

/-- The body is put in at the mark, and swept with the rest. -/
theorem fillPartial_slot (hslot : e.attribute? "slot".toList = none) (hbefore : '\x7b' ∉ before)
    (hafter : '\x7b' ∉ after) (hafter' : '\x7d' ∉ after) :
    site.fillPartial frontmatter e (before ++ (slot ++ after)) = before ++ (sweepBare e.body ++ after) := by
  have hmark : slot ++ after = '\x7b' :: ("slot\x7d".toList ++ after) := rfl
  have hbody : Text.replaceAll slot e.body (before ++ (slot ++ after)) = before ++ (e.body ++ after) := by
    have hfirst : ∀ d s, d ≠ '\x7b' → ((Text.after? slot (d :: s)).map fun rest => (e.body, rest)) = none := by
      intro d s hd
      have hafter? : Text.after? slot (d :: s) = none := if_neg (Ne.symm hd)
      rw [hafter?]
      rfl
    have hput : Text.replaceAll slot e.body (slot ++ after) = e.body ++ Text.replaceAll slot e.body after := by
      rw [hmark]
      refine Text.substitute_cons_some ?_ ?_
      · rw [← hmark, Text.after?_append_self]
        rfl
      · rw [List.length_append]
        omega
    rw [Text.replaceAll, Text.substitute_append_of_notMem hfirst hbefore, ← Text.replaceAll, hput, Text.replaceAll,
      Text.substitute_of_notMem hfirst hafter]
  unfold fillPartial
  simp only
  rw [foldl_replaceNamed_slot (fun written => site.resolveValue frontmatter written) hslot hbefore hafter hafter',
    hbody, sweepBare_append_of_notMem hbefore, sweepBare_append hafter hafter']

/-- A site with a single partial, which may not include others. -/
def partialSite (source template : Text) : Site MemoryStore where
  store := ⟨[(SitePath.includes.joinText source, template)]⟩
  settings := { SiteSettings.default with maxDepth := 1 }
  collections := []

theorem read_partialSite (source template : Text) :
    (partialSite source template).read (SitePath.includes.joinText source) = .ok template := by
  simp [partialSite, Site.read, Storage.read, MemoryStore.get?, Path.same, Except.mapError]

/-- The body of an include is put in as it is if and only if it has no fallbacks that are put in and there are no
includes in what comes out. -/
theorem expandIncludes_slot_iff (ho : Element.Opens "include".toList o attributes)
    (hsource : attributes.get? "src".toList = some source) (hslot : attributes.get? "slot".toList = none)
    (hbody : IsIncludeBody body) (hbefore : '\x7b' ∉ before) (hafter : '\x7b' ∉ after) (hafter' : '\x7d' ∉ after) :
    (∀ (σ : Type) [Storage σ] (site : Site σ) (frontmatter : Option Fields), 0 < site.settings.maxDepth →
        site.read (SitePath.includes.joinText source) = .ok (before ++ (slot ++ after)) →
        site.expandIncludes frontmatter (Element.written o body includeClosing) =
          .ok (before ++ (body ++ after))) ↔
      sweepBare body = body ∧ IncludeFree (before ++ (body ++ after)) := by
  have hexpand : ∀ {σ : Type} [Storage σ] (site : Site σ) (frontmatter : Option Fields) (n : ℕ),
      site.read (SitePath.includes.joinText source) = .ok (before ++ (slot ++ after)) →
      site.expandIncludesWithin frontmatter (n + 1) (Element.written o body includeClosing) =
        site.expandIncludesWithin frontmatter n (before ++ (sweepBare body ++ after)) := by
    intro σ _ site frontmatter n hread
    let e : Element := ⟨'<' :: o, attributes, some (body, '<' :: includeClosing)⟩
    have hfill : site.fillPartial frontmatter e (before ++ (slot ++ after)) =
        before ++ (sweepBare body ++ after) := fillPartial_slot hslot hbefore hafter hafter'
    rw [expandIncludesWithin_include (find?_include ho hbody) hsource hread, hfill]
  constructor
  · intro h
    -- where partials may not include others, an include that comes out is an error
    have hread := read_partialSite source (before ++ (slot ++ after))
    have hout := h MemoryStore (partialSite source (before ++ (slot ++ after))) none Nat.one_pos hread
    have hzero : (partialSite source (before ++ (slot ++ after))).expandIncludesWithin none 0
        (before ++ (sweepBare body ++ after)) = .ok (before ++ (body ++ after)) := by
      rw [← hexpand _ none 0 hread]
      exact hout
    have hfree := includeFree_of_expandIncludesWithin_zero hzero
    rw [expandIncludesWithin_of_includeFree hfree] at hzero
    have hsame := Except.ok.inj hzero
    have hswept : sweepBare body = body := by simpa using hsame
    exact ⟨hswept, hsame ▸ hfree⟩
  · rintro ⟨hswept, hfree⟩ σ _ site frontmatter hdepth hread
    obtain ⟨n, hn⟩ : ∃ n, site.settings.maxDepth = n + 1 := ⟨site.settings.maxDepth - 1, by omega⟩
    rw [expandIncludes, hn, hexpand site frontmatter n hread, hswept]
    exact expandIncludesWithin_of_includeFree hfree n

/-! ### A body with placeholders -/

/-- The opening tag of an include with an attribute, behind its `<`. -/
def badgeOpening : Text := "include src=\"p.html\" title=\"T\">".toList

theorem opens_badge :
    Element.Opens "include".toList badgeOpening [("src".toList, "p.html".toList), ("title".toList, ['T'])] := by
  have hsrc : OpenTag.IsName "src".toList := ⟨by decide +kernel, 's', "rc".toList, by decide⟩
  have htitle : OpenTag.IsName "title".toList := ⟨by decide +kernel, 't', "itle".toList, by decide⟩
  intro r
  refine ⟨rfl, " src=\"p.html\" title=\"T\">".toList ++ r, rfl, ?_⟩
  have htext : " src=\"p.html\" title=\"T\">".toList ++ r =
      ' ' :: ("src".toList ++ "=\"".toList ++ "p.html".toList ++ '"' :: ' ' ::
        ("title".toList ++ "=\"".toList ++ ['T'] ++ '"' :: '>' :: r)) := rfl
  rw [OpenTag.parse?, htext, OpenTag.parseFrom_blank (by decide), OpenTag.parseFrom_attribute hsrc (by decide),
    OpenTag.parseFrom_blank (by decide), OpenTag.parseFrom_attribute htitle (by decide), OpenTag.parseFrom_end]
  rfl

/-- Neither the mark for the body nor the name of an attribute nor a name that no one fills in is touched. -/
theorem expandIncludes_slot_names :
    (partialSite "p.html".toList "[\x7bslot\x7d]".toList).expandIncludes none
        (Element.written badgeOpening "\x7bslot\x7d\x7btitle\x7d\x7ba.b\x7d".toList includeClosing) =
      .ok "[\x7bslot\x7d\x7btitle\x7d\x7ba.b\x7d]".toList := by
  have hswept : sweepBare "\x7bslot\x7d\x7btitle\x7d\x7ba.b\x7d".toList = "\x7bslot\x7d\x7btitle\x7d\x7ba.b\x7d".toList :=
    sweepBare_of_free (by decide +kernel)
  have hfree : IncludeFree ("[".toList ++ ("\x7bslot\x7d\x7btitle\x7d\x7ba.b\x7d".toList ++ "]".toList)) :=
    includeFree_of_notMem (by decide)
  exact (expandIncludes_slot_iff opens_badge rfl rfl (by decide +kernel) (by decide) (by decide) (by decide)).2
    ⟨hswept, hfree⟩ MemoryStore _ none Nat.one_pos (read_partialSite "p.html".toList _)

/-- A fallback in the body is put in, so the body does not come through as it is. -/
theorem expandIncludes_slot_fallback :
    (partialSite "p.html".toList slot).expandIncludes none
        (Element.written "include src=\"p.html\">".toList "\x7btitle or 'x'\x7d".toList includeClosing) =
      .ok ['x'] := by
  decide +kernel

end Site

end Pagewright
