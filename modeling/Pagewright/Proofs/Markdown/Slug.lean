import Mathlib.Data.List.Infix
import Pagewright.Markdown.Slug
import Pagewright.Proofs.Text.Lowercase
import Pagewright.Proofs.Text.Occurrence
import Pagewright.Proofs.Text.Words

/-!
# Slugs

A slug is made of words. Three things live here:

* the words of a text that come into its slug (`slugWords`): the slug is these words in lower case with a dash between
  each two (`slugify_eq_dashed`);
* so the dashes of a slug are single ones within it, whatever the text is (`DashesWithin`);
* what is not a letter, a number or a dash in a slug is the dot above that comes with the dotted capital I, and a slug
  is its own slug if and only if there is none (`slugify_canonical_iff`).
-/

namespace Pagewright.Markdown

open Text

variable {b : Bool} {c : Char} {s t u w : Text} {l : List Text}

/-! ## The words of a slug -/

/-- Does the character count for a slug? -/
def isSlugChar (c : Char) : Bool := isAlphanumeric c || isSeparator c

/-- The words of a text that come into its slug: what is neither part of a word nor a separator is passed over. -/
def slugWords (t : Text) : List Text := words isSeparator (t.filter isSlugChar)

theorem isAlphanumeric_of_isSeparator (h : isSeparator c) : isAlphanumeric c = false := by
  simp only [isSeparator, Bool.or_eq_true, decide_eq_true_eq] at h
  rcases h with (h | rfl) | rfl
  · exact isAlphanumeric_of_isBlank h
  · decide
  · decide

theorem isSeparator_of_isAlphanumeric (h : isAlphanumeric c) : isSeparator c = false := by
  cases hsep : isSeparator c with
  | false => rfl
  | true => exact absurd h (by simp [isAlphanumeric_of_isSeparator hsep])

theorem isSeparator_of_isBlank (h : isBlank c) : isSeparator c := by
  simp [isSeparator, h]

theorem of_mem_slugWords (h : w ∈ slugWords t) : w ≠ [] ∧ ∀ c ∈ w, isAlphanumeric c ∧ c ∈ t := by
  obtain ⟨hne, hword, hmem⟩ := of_mem_words h
  refine ⟨hne, fun c hc => ?_⟩
  obtain ⟨ht, hslug⟩ := List.mem_filter.1 (hmem c hc)
  rw [isSlugChar, hword c hc, Bool.or_false] at hslug
  exact ⟨hslug, ht⟩

theorem exists_mem_slugWords (hc : c ∈ t) (halnum : isAlphanumeric c) : ∃ w ∈ slugWords t, c ∈ w := by
  have hflat : c ∈ (slugWords t).flatten := by
    rw [slugWords, flatten_words]
    refine List.mem_filter.2 ⟨List.mem_filter.2 ⟨hc, ?_⟩, ?_⟩
    · rw [isSlugChar, halnum, Bool.true_or]
    · rw [isSeparator_of_isAlphanumeric halnum, Bool.not_false]
  exact List.mem_flatten.1 hflat

theorem slugWords_trim (t : Text) : slugWords (trim t) = slugWords t := by
  have hblank : ∀ u : Text, (∀ c ∈ u, isBlank c) → ∀ c ∈ u.filter isSlugChar, isSeparator c :=
    fun u hu c hc => isSeparator_of_isBlank (hu c (List.mem_filter.1 hc).1)
  obtain ⟨front, back, ht, hfront, hback⟩ := exists_eq_trim t
  calc slugWords (trim t) = slugWords (front ++ (trim t ++ back)) := by
        rw [slugWords, slugWords, List.filter_append, List.filter_append,
          words_separators_append (hblank front hfront), words_append_separators (hblank back hback)]
    _ = slugWords t := by rw [← ht]

/-! ## The slug of words -/

/-- Words in lower case with a dash between each two. -/
def dashed (l : List Text) : Text := join ['-'] (l.map (·.flatMap lower))

theorem slugFrom_cons (b : Bool) (c : Char) (t : Text) : slugFrom b (c :: t) =
    if isAlphanumeric c then lower c ++ slugFrom false t
    else if !b && isSeparator c then '-' :: slugFrom true t
    else slugFrom b t := rfl

theorem slugFrom_filter (b : Bool) (t : Text) : slugFrom b (t.filter isSlugChar) = slugFrom b t := by
  induction t generalizing b with
  | nil => rfl
  | cons c t ih =>
    cases hc : isSlugChar c with
    | true =>
      rw [List.filter_cons_of_pos hc, slugFrom_cons, slugFrom_cons]
      simp only [ih]
    | false =>
      rw [List.filter_cons_of_neg (by simp [hc]), slugFrom_cons]
      rw [isSlugChar, Bool.or_eq_false_iff] at hc
      simp [hc, ih]

theorem slugFrom_word_append (hne : w ≠ []) (hw : ∀ c ∈ w, isAlphanumeric c) (b : Bool) (t : Text) :
    slugFrom b (w ++ t) = w.flatMap lower ++ slugFrom false t := by
  induction w generalizing b with
  | nil => exact absurd rfl hne
  | cons c w ih =>
    obtain ⟨hc, hrest⟩ := List.forall_mem_cons.1 hw
    rw [List.cons_append, slugFrom_cons, if_pos hc, List.flatMap_cons, List.append_assoc]
    by_cases hnil : w = []
    · rw [hnil]
      rfl
    · rw [ih hnil hrest]

theorem slugFrom_separator (hc : isSeparator c) (t : Text) :
    slugFrom true (c :: t) = slugFrom true t ∧ slugFrom false (c :: t) = '-' :: slugFrom true t := by
  have halnum := isAlphanumeric_of_isSeparator hc
  constructor
  · rw [slugFrom_cons]
    simp [halnum]
  · rw [slugFrom_cons]
    simp [halnum, hc]

/-- The words come one after the other with dashes between them, and a dash may follow the last one. -/
theorem slugFrom_eq_dashed (h : ∀ c ∈ u, isSlugChar c) :
    slugFrom true u = dashed (words isSeparator u) ∨
      words isSeparator u ≠ [] ∧ slugFrom true u = dashed (words isSeparator u) ++ ['-'] := by
  induction u using word_induction isSeparator with
  | nil =>
    left
    rw [words_nil]
    rfl
  | separator c u hc ih =>
    rw [(slugFrom_separator hc u).1, words_cons hc]
    exact ih (List.forall_mem_cons.1 h).2
  | word w u hne hw hu ih =>
    obtain ⟨hslug, hrest⟩ := List.forall_mem_append.1 h
    have halnum : ∀ c ∈ w, isAlphanumeric c := by
      intro c hc
      have := hslug c hc
      rwa [isSlugChar, hw c hc, Bool.or_false] at this
    rw [slugFrom_word_append hne halnum, words_append hne hw hu]
    cases u with
    | nil =>
      left
      rw [words_nil]
      exact List.append_nil _
    | cons c u =>
      have hc : isSeparator c := hu c rfl
      have ih := ih hrest
      rw [(slugFrom_separator hc u).1] at ih
      rw [(slugFrom_separator hc u).2]
      by_cases hnone : words isSeparator (c :: u) = []
      · rw [hnone] at ih ⊢
        have hempty : slugFrom true u = [] := ih.resolve_right fun h => h.1 rfl
        right
        rw [hempty]
        exact ⟨List.cons_ne_nil _ _, rfl⟩
      · have hdashed : dashed (w :: words isSeparator (c :: u)) =
            w.flatMap lower ++ '-' :: dashed (words isSeparator (c :: u)) := by
          rw [dashed, List.map_cons, join_cons (by simpa using hnone), List.append_assoc]
          rfl
        rw [hdashed]
        rcases ih with ih | ⟨-, ih⟩
        · exact Or.inl (by rw [ih])
        · exact Or.inr ⟨List.cons_ne_nil _ _, by rw [ih, List.append_assoc, List.cons_append]⟩

/-! ## Dashes -/

/-- A text has only single dashes, none of them at one of its ends. -/
structure DashesWithin (t : Text) : Prop where
  head : t.head? ≠ some '-'
  last : t.getLast? ≠ some '-'
  single : ¬ ['-', '-'] <:+: t

theorem join_ne_nil (hl : ∀ w ∈ l, w ≠ []) (hne : l ≠ []) : join ['-'] l ≠ [] := by
  obtain ⟨w, l, rfl⟩ := List.exists_cons_of_ne_nil hne
  obtain ⟨c, w, rfl⟩ := List.exists_cons_of_ne_nil (hl w List.mem_cons_self)
  exact List.ne_nil_of_mem (mem_join_of_mem List.mem_cons_self List.mem_cons_self)

theorem dashesWithin_join (hl : ∀ w ∈ l, w ≠ [] ∧ '-' ∉ w) : DashesWithin (join ['-'] l) := by
  induction l with
  | nil => exact ⟨by simp [join], by simp [join], by decide⟩
  | cons w l ih =>
    obtain ⟨⟨hne, hw⟩, hrest⟩ := List.forall_mem_cons.1 hl
    by_cases hnil : l = []
    · subst hnil
      exact ⟨fun h => hw (List.mem_of_head? h), fun h => hw (List.mem_of_getLast? h),
        fun h => hw (h.subset List.mem_cons_self)⟩
    · obtain ⟨hhead, hlast, hsingle⟩ := ih hrest
      have hjoin : join ['-'] l ≠ [] := join_ne_nil (fun w hw => (hrest w hw).1) hnil
      rw [join_cons hnil, List.append_assoc, List.singleton_append]
      refine ⟨fun h => ?_, fun h => ?_, fun h => ?_⟩
      · rw [List.head?_append_of_ne_nil w hne] at h
        exact hw (List.mem_of_head? h)
      · rw [List.append_cons, List.getLast?_append_of_ne_nil _ hjoin] at h
        exact hlast h
      · rw [infix_append_iff_of_head_notMem hw, List.infix_cons_iff, List.cons_prefix_cons] at h
        rcases h with ⟨-, h⟩ | h
        · obtain ⟨r, hr⟩ := h
          exact hhead (by rw [← hr]; rfl)
        · exact hsingle h

/-- The dashes are as many as the words but the first one. -/
theorem count_dash_join (hl : ∀ w ∈ l, '-' ∉ w) : (join ['-'] l).count '-' = l.length - 1 := by
  induction l with
  | nil => rfl
  | cons w l ih =>
    obtain ⟨hw, hrest⟩ := List.forall_mem_cons.1 hl
    by_cases hnil : l = []
    · subst hnil
      exact List.count_eq_zero.2 hw
    · have hlength : 0 < l.length := List.length_pos_iff.2 hnil
      rw [join_cons hnil, List.count_append, List.count_append, ih hrest, List.count_eq_zero.2 hw,
        List.count_singleton_self, List.length_cons]
      omega

theorem of_mem_map_slugWords (h : w ∈ (slugWords t).map (·.flatMap lower)) : w ≠ [] ∧ '-' ∉ w := by
  obtain ⟨v, hv, rfl⟩ := List.mem_map.1 h
  obtain ⟨hne, hmem⟩ := of_mem_slugWords hv
  constructor
  · obtain ⟨c, v, rfl⟩ := List.exists_cons_of_ne_nil hne
    rw [List.flatMap_cons]
    exact List.append_ne_nil_of_left_ne_nil (lower_ne_nil c) _
  · intro hdash
    obtain ⟨c, hc, hlower⟩ := List.mem_flatMap.1 hdash
    have hcdash : c ≠ '-' := by
      rintro rfl
      exact absurd (hmem _ hc).1 (by decide)
    exact notMem_lower (by decide) (by decide) hcdash hlower

/-- The slug of a text is its words in lower case with a dash between each two. -/
theorem slugify_eq_dashed (t : Text) : slugify t = dashed (slugWords t) := by
  have hwords : words isSeparator ((trim t).filter isSlugChar) = slugWords t := slugWords_trim t
  have hlast : (dashed (slugWords t)).getLast? ≠ some '-' :=
    (dashesWithin_join fun w hw => of_mem_map_slugWords hw).last
  rw [slugify, ← slugFrom_filter, dropFinalDash]
  rcases slugFrom_eq_dashed (u := (trim t).filter isSlugChar) (fun c hc => (List.mem_filter.1 hc).2) with h | ⟨-, h⟩
  · rw [h, hwords, if_neg hlast]
  · rw [h, hwords, if_pos (by rw [List.getLast?_concat]), List.dropLast_concat]

theorem dashesWithin_slugify (t : Text) : DashesWithin (slugify t) := by
  rw [slugify_eq_dashed]
  exact dashesWithin_join fun w hw => of_mem_map_slugWords hw

/-- Texts with the same slug have as many words in it. -/
theorem length_slugWords_eq (h : slugify s = slugify t) : (slugWords s).length = (slugWords t).length := by
  have hnil : ∀ t, slugify t = [] → slugWords t = [] := by
    intro t ht
    rw [slugify_eq_dashed] at ht
    by_contra hne
    exact join_ne_nil (fun w hw => (of_mem_map_slugWords hw).1) (by simpa using hne) ht
  have hcount : ∀ t, (slugify t).count '-' = (slugWords t).length - 1 := by
    intro t
    rw [slugify_eq_dashed, dashed, count_dash_join fun w hw => (of_mem_map_slugWords hw).2, List.length_map]
  by_cases hempty : slugify t = []
  · rw [hnil t hempty, hnil s (h.trans hempty)]
  · have hpos : ∀ t, slugify t ≠ [] → 0 < (slugWords t).length := by
      intro t ht
      refine List.length_pos_iff.2 fun hwords => ht ?_
      rw [slugify_eq_dashed, hwords]
      rfl
    have hs := hcount s
    have ht := hcount t
    have hspos := hpos s (h ▸ hempty)
    have htpos := hpos t hempty
    rw [h] at hs
    omega

/-! ## Letters and numbers -/

theorem mem_slugify_iff (hc : c ≠ '-') : c ∈ slugify t ↔ ∃ d ∈ t, isAlphanumeric d ∧ c ∈ lower d := by
  rw [slugify_eq_dashed]
  constructor
  · intro h
    rcases mem_join h with h | ⟨w, hw, hcw⟩
    · exact absurd (List.mem_singleton.1 h) hc
    · obtain ⟨v, hv, rfl⟩ := List.mem_map.1 hw
      obtain ⟨d, hd, hlower⟩ := List.mem_flatMap.1 hcw
      obtain ⟨halnum, ht⟩ := (of_mem_slugWords hv).2 d hd
      exact ⟨d, ht, halnum, hlower⟩
  · rintro ⟨d, hd, halnum, hlower⟩
    obtain ⟨v, hv, hdv⟩ := exists_mem_slugWords hd halnum
    exact mem_join_of_mem (List.mem_map.2 ⟨v, hv, rfl⟩) (List.mem_flatMap.2 ⟨d, hdv, hlower⟩)

/-- A slug has no dotted capital I, which is none in lower case. -/
theorem dottedI_notMem_slugify (t : Text) : dottedI ∉ slugify t := by
  intro h
  obtain ⟨d, -, -, hlower⟩ := (mem_slugify_iff (by decide)).1 h
  by_cases hd : d = dottedI
  · rw [hd, lower_dottedI] at hlower
    exact absurd hlower (by decide)
  · obtain ⟨e, he, hne, -⟩ := lower_cases hd
    rw [he, List.mem_singleton] at hlower
    exact hne hlower.symm

/-- A slug has letters, numbers and dashes only, unless its text has a dotted capital I. -/
theorem forall_mem_slugify_iff (t : Text) :
    (∀ c ∈ slugify t, isAlphanumeric c ∨ c = '-') ↔ dottedI ∉ t := by
  constructor
  · intro h hdotted
    have hdot : '\u0307' ∈ slugify t := by
      refine (mem_slugify_iff (by decide)).2 ⟨dottedI, hdotted, isAlphanumeric_dottedI, ?_⟩
      rw [lower_dottedI]
      decide
    rcases h _ hdot with h | h
    · exact absurd h (by simp [isAlphanumeric_dot])
    · exact absurd h (by decide)
  · intro hdotted c hc
    by_cases hdash : c = '-'
    · exact Or.inr hdash
    · obtain ⟨d, hd, halnum, hlower⟩ := (mem_slugify_iff hdash).1 hc
      have hne : d ≠ dottedI := fun h => hdotted (h ▸ hd)
      obtain ⟨e, he, -, -, hkept⟩ := lower_cases hne
      rw [he, List.mem_singleton] at hlower
      exact Or.inl (hlower ▸ hkept halnum)

/-- Words in lower case come into a slug as they are. -/
theorem slugify_dashed (hl : ∀ w ∈ l, w ≠ [] ∧ ∀ c ∈ w, isAlphanumeric c ∧ lower c = [c]) :
    slugify (join ['-'] l) = join ['-'] l := by
  have hslug : (join ['-'] l).filter isSlugChar = join ['-'] l := by
    refine List.filter_eq_self.2 fun c hc => ?_
    rcases mem_join hc with hc | ⟨w, hw, hcw⟩
    · rw [List.mem_singleton.1 hc]
      decide
    · rw [isSlugChar, ((hl w hw).2 c hcw).1, Bool.true_or]
  have hwords : slugWords (join ['-'] l) = l := by
    rw [slugWords, hslug]
    exact words_join (by decide) fun w hw =>
      ⟨(hl w hw).1, fun c hc => isSeparator_of_isAlphanumeric ((hl w hw).2 c hc).1⟩
  have hlower : ∀ w ∈ l, w.flatMap lower = w := by
    intro w hw
    rw [List.flatMap_congr fun c hc => ((hl w hw).2 c hc).2, List.flatMap_singleton']
  rw [slugify_eq_dashed, hwords, dashed, List.map_congr_left hlower, List.map_id']

theorem slugify_slugify_of_notMem (h : dottedI ∉ t) : slugify (slugify t) = slugify t := by
  rw [slugify_eq_dashed t]
  refine slugify_dashed fun w hw => ⟨(of_mem_map_slugWords hw).1, fun c hc => ?_⟩
  obtain ⟨v, hv, rfl⟩ := List.mem_map.1 hw
  obtain ⟨d, hd, hlower⟩ := List.mem_flatMap.1 hc
  obtain ⟨halnum, ht⟩ := (of_mem_slugWords hv).2 d hd
  have hne : d ≠ dottedI := fun heq => h (heq ▸ ht)
  obtain ⟨e, he, -, hself, hkept⟩ := lower_cases hne
  rw [he, List.mem_singleton] at hlower
  subst hlower
  exact ⟨hkept halnum, hself⟩

/-- Whatever the text is, the dashes of its slug are single ones within it. The other characters are letters and
numbers if and only if the text has no dotted capital I, and so is the slug its own slug: the dot above that comes with
the small letter is put into a slug, and left out of the next one. -/
theorem slugify_canonical_iff (t : Text) :
    DashesWithin (slugify t) ∧ ((∀ c ∈ slugify t, isAlphanumeric c ∨ c = '-') ↔ dottedI ∉ t) ∧
      (slugify (slugify t) = slugify t ↔ dottedI ∉ t) := by
  refine ⟨dashesWithin_slugify t, forall_mem_slugify_iff t, fun h => ?_, slugify_slugify_of_notMem⟩
  -- the slug of a slug has letters and numbers only, as a slug has no dotted capital I
  have hsecond := (forall_mem_slugify_iff (slugify t)).2 (dottedI_notMem_slugify t)
  rw [h] at hsecond
  exact (forall_mem_slugify_iff t).1 hsecond

/-- The slug of the dotted capital I has a character that is no letter, and is not its own slug. -/
theorem slugify_dottedI :
    slugify [dottedI] = ['i', '\u0307'] ∧ isAlphanumeric '\u0307' = false ∧ slugify (slugify [dottedI]) = ['i'] := by
  decide

end Pagewright.Markdown
