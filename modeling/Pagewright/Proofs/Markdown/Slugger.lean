import Mathlib.Data.Finset.Card
import Mathlib.Data.Nat.Find
import Pagewright.Markdown.Heading

/-!
# Slugs that are handed out

A `Slugger` looks for the first number that makes a slug a new one. Three things live here:

* there is always such a number, and the search ends with the least one (`Slugger.exists_unique_eq`);
* a slugger that hands out slugs for one text after the other (`Slugger.assign`), which is what is done for the
  headings of a document (`headingsFrom_eq`);
* these slugs are pairwise distinct (`Slugger.nodup_assign`), and each comes with the number of texts before it that
  have the same slug on their own (`Slugger.seen_assign`).
-/

namespace Pagewright.Markdown

namespace Slugger

variable {s : Slugger} {issued : List Text} {base t : Text} {n m : ℕ}

/-! ## Numbers behind a slug -/

theorem numbered_injective (base : Text) : Function.Injective (numbered base) := by
  intro n m h
  unfold numbered at h
  split at h <;> split at h
  · next hn hm => rw [hn, hm]
  · simp at h
  · simp at h
  · have hdigits : Nat.toDigits 10 n = Nat.toDigits 10 m := (List.cons.inj (List.append_cancel_left h)).2
    calc n = Nat.ofDigitChars 10 (Nat.toDigits 10 n) 0 := Nat.ofDigitChars_ten_toDigits.symm
      _ = Nat.ofDigitChars 10 (Nat.toDigits 10 m) 0 := by rw [hdigits]
      _ = m := Nat.ofDigitChars_ten_toDigits

/-- Of more numbers than there are slugs, one makes a new slug. -/
theorem exists_numbered_notMem (issued : List Text) (base : Text) (n : ℕ) :
    ∃ k ≤ issued.length, numbered base (n + k) ∉ issued := by
  -- if none did, there would be more numbered slugs than slugs that were given out
  by_contra! hall
  have hinj : Function.Injective fun k => numbered base (n + k) :=
    fun _ _ h => Nat.add_left_cancel (numbered_injective base h)
  have hsub : (Finset.range (issued.length + 1)).image (fun k => numbered base (n + k)) ⊆ issued.toFinset := by
    intro u hu
    obtain ⟨k, hk, rfl⟩ := Finset.mem_image.1 hu
    exact List.mem_toFinset.2 (hall k (Nat.lt_succ_iff.1 (Finset.mem_range.1 hk)))
  have hcard := (Finset.card_le_card hsub).trans (List.toFinset_card_le issued)
  rw [Finset.card_image_of_injective _ hinj, Finset.card_range] at hcard
  exact Nat.not_succ_le_self _ hcard

/-- The search ends with the least number that makes a new slug, when it may look that far. -/
theorem firstFree_eq {k fuel : ℕ} (hk : k ≤ fuel) (hfree : numbered base (n + k) ∉ issued)
    (hleast : ∀ j < k, numbered base (n + j) ∈ issued) : firstFree issued base n fuel = n + k := by
  induction k generalizing n fuel with
  | zero =>
    cases fuel with
    | zero => rfl
    | succ fuel => exact if_neg hfree
  | succ k ih =>
    obtain ⟨fuel, rfl⟩ := Nat.exists_eq_add_one.2 (Nat.zero_lt_of_lt hk)
    have htaken : numbered base n ∈ issued := hleast 0 (Nat.succ_pos k)
    have hshift : ∀ j, n + (j + 1) = n + 1 + j := fun j => by omega
    rw [firstFree, if_pos htaken, hshift k]
    rw [hshift k] at hfree
    apply ih (Nat.le_of_succ_le_succ hk) hfree
    intro j hj
    rw [← hshift j]
    exact hleast (j + 1) (Nat.succ_lt_succ hj)

/-- Whatever slugs were given out: going up from the number of earlier headings, a new slug is found after as many
steps as there are slugs at most, and the first one that is found is given out. -/
theorem exists_unique_eq (s : Slugger) (t : Text) :
    ∃ n, s.count (slugify t) ≤ n ∧ n ≤ s.count (slugify t) + s.issued.length ∧
      numbered (slugify t) n ∉ s.issued ∧
      (∀ k, s.count (slugify t) ≤ k → k < n → numbered (slugify t) k ∈ s.issued) ∧
      s.unique t = (numbered (slugify t) n, s.count (slugify t),
        ⟨(slugify t, s.count (slugify t) + 1) :: s.counts, numbered (slugify t) n :: s.issued⟩) := by
  have hexists := exists_numbered_notMem s.issued (slugify t) (s.count (slugify t))
  have hfree : ∃ k, numbered (slugify t) (s.count (slugify t) + k) ∉ s.issued := by
    obtain ⟨k, -, hk⟩ := hexists
    exact ⟨k, hk⟩
  have hbound : Nat.find hfree ≤ s.issued.length := by
    obtain ⟨k, hle, hk⟩ := hexists
    exact (Nat.find_min' hfree hk).trans hle
  have hleast : ∀ j < Nat.find hfree, numbered (slugify t) (s.count (slugify t) + j) ∈ s.issued :=
    fun j hj => of_not_not (Nat.find_min hfree hj)
  refine ⟨s.count (slugify t) + Nat.find hfree, Nat.le_add_right _ _, Nat.add_le_add_left hbound _,
    Nat.find_spec hfree, fun k hk hlt => ?_, ?_⟩
  · obtain ⟨j, rfl⟩ := Nat.exists_eq_add_of_le hk
    exact hleast j (Nat.lt_of_add_lt_add_left hlt)
  · rw [unique, firstFree_eq (Nat.le_succ_of_le hbound) (Nat.find_spec hfree) hleast]

theorem unique_fst_notMem (s : Slugger) (t : Text) : (s.unique t).1 ∉ s.issued := by
  obtain ⟨n, -, -, hfree, -, heq⟩ := s.exists_unique_eq t
  rwa [heq]

theorem issued_unique (s : Slugger) (t : Text) : (s.unique t).2.2.issued = (s.unique t).1 :: s.issued := rfl

theorem count_unique (s : Slugger) (t base : Text) :
    (s.unique t).2.2.count base = s.count base + if slugify t = base then 1 else 0 := by
  show (List.lookup base ((slugify t, s.count (slugify t) + 1) :: s.counts)).getD 0 = _
  by_cases h : slugify t = base
  · rw [if_pos h, h, List.lookup_cons, beq_self_eq_true]
    rfl
  · rw [if_neg h, List.lookup_cons, beq_eq_false_iff_ne.2 (Ne.symm h)]
    rfl

/-! ## One text after the other -/

/-- The headings that are given slugs one after the other, each with where it opens, its level and its text. -/
def assign : Slugger → List (ℕ × ℕ × Text) → List Heading
  | _, [] => []
  | s, (i, level, t) :: rest =>
    ⟨i, level, t, (s.unique t).1, (s.unique t).2.1⟩ :: assign (s.unique t).2.2 rest

/-- The slugs are a matter of the texts alone. -/
theorem map_slug_assign_congr (s : Slugger) {found found' : List (ℕ × ℕ × Text)}
    (h : found.map (·.2.2) = found'.map (·.2.2)) :
    (s.assign found).map (·.slug) = (s.assign found').map (·.slug) := by
  induction found generalizing s found' with
  | nil =>
    obtain rfl := List.map_eq_nil_iff.1 h.symm
    rfl
  | cons a rest ih =>
    cases found' with
    | nil => cases h
    | cons b rest' =>
      obtain ⟨htext, hrest⟩ := List.cons.inj h
      rw [assign, assign, List.map_cons, List.map_cons, ih _ hrest]
      dsimp only at htext ⊢
      rw [htext]

/-- No slug is given out twice, nor is one that was given out before. -/
theorem nodup_assign (s : Slugger) (found : List (ℕ × ℕ × Text)) :
    ((s.assign found).map (·.slug)).Nodup ∧ ∀ h ∈ s.assign found, h.slug ∉ s.issued := by
  induction found generalizing s with
  | nil => exact ⟨List.nodup_nil, by simp [assign]⟩
  | cons a rest ih =>
    obtain ⟨hnodup, hnew⟩ := ih (s.unique a.2.2).2.2
    rw [issued_unique] at hnew
    simp only [List.mem_cons, not_or] at hnew
    constructor
    · rw [assign, List.map_cons, List.nodup_cons]
      refine ⟨fun hmem => ?_, hnodup⟩
      obtain ⟨h, hh, heq⟩ := List.mem_map.1 hmem
      exact (hnew h hh).1 heq
    · rw [assign, List.forall_mem_cons]
      exact ⟨s.unique_fst_notMem a.2.2, fun h hh => (hnew h hh).2⟩

/-- With each slug comes how many of the texts before have the same one on their own. -/
theorem seen_assign (s : Slugger) (found : List (ℕ × ℕ × Text)) {i : ℕ} {h : Heading}
    (hi : (s.assign found)[i]? = some h) :
    h.seen = s.count (slugify h.text) +
      ((s.assign found).take i).countP fun g => slugify g.text = slugify h.text := by
  -- the induction is for every slugger, as each heading is counted before the next one is given a slug
  induction found generalizing s i with
  | nil => simp [assign] at hi
  | cons a rest ih =>
    rw [assign] at hi ⊢
    cases i with
    | zero =>
      rw [List.getElem?_cons_zero, Option.some.injEq] at hi
      subst hi
      rfl
    | succ i =>
      rw [List.getElem?_cons_succ] at hi
      rw [ih _ hi, count_unique, List.take_succ_cons, List.countP_cons, Nat.add_assoc, Nat.add_comm (ite _ _ _)]
      simp only [decide_eq_true_eq]

end Slugger

end Pagewright.Markdown
