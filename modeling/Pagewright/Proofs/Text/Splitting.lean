import Mathlib.Order.Nat
import Pagewright.Proofs.Text.Words

/-!
# Texts that are split at a separator

The parts of a text are split at each separator (`Text.split_append_sep`), none of them has one, and joining them
undoes it (`Text.split_join`).
-/

namespace Pagewright.Text

variable {sep c : Char} {t u s : Text} {l : List Text}

/-- The first part of a text goes up to the first separator. -/
theorem split_eq_cons (sep : Char) (t : Text) : ∃ ps, split sep t = t.takeWhile (· ≠ sep) :: ps := by
  induction t with
  | nil => exact ⟨[], rfl⟩
  | cons c t ih =>
    obtain ⟨ps, hps⟩ := ih
    rw [split]
    split
    · next hc => exact ⟨split sep t, by rw [List.takeWhile_cons_of_neg (by simpa using hc)]⟩
    · next hc =>
      rw [hps, List.takeWhile_cons_of_pos (by simpa using hc)]
      exact ⟨ps, rfl⟩

theorem notMem_of_mem_split (h : s ∈ split sep t) : sep ∉ s := by
  induction t generalizing s with
  | nil =>
    rw [split, List.mem_singleton] at h
    rw [h]
    exact List.not_mem_nil
  | cons c t ih =>
    rw [split] at h
    split at h
    · rcases List.mem_cons.1 h with rfl | h
      · exact List.not_mem_nil
      · exact ih h
    · next hc =>
      obtain ⟨ps, hps⟩ := split_eq_cons sep t
      rw [hps] at h ih
      rcases List.mem_cons.1 h with rfl | h
      · rw [List.mem_cons, not_or]
        exact ⟨Ne.symm hc, ih List.mem_cons_self⟩
      · exact ih (List.mem_cons_of_mem _ h)

theorem split_of_notMem (h : sep ∉ u) : split sep u = [u] := by
  induction u with
  | nil => rfl
  | cons c u ih =>
    rw [List.mem_cons, not_or] at h
    rw [split, if_neg (Ne.symm h.1), ih h.2]

theorem split_append_cons (h : sep ∉ u) (t : Text) : split sep (u ++ sep :: t) = u :: split sep t := by
  induction u with
  | nil => exact if_pos rfl
  | cons c u ih =>
    rw [List.mem_cons, not_or] at h
    rw [List.cons_append, split, if_neg (Ne.symm h.1), ih h.2]

theorem split_append_sep (sep : Char) (s t : Text) :
    split sep (s ++ sep :: t) = split sep s ++ split sep t := by
  induction s with
  | nil => exact if_pos rfl
  | cons c s ih =>
    rw [List.cons_append, split, split]
    by_cases hc : c = sep
    · rw [if_pos hc, if_pos hc, ih]
      rfl
    · rw [if_neg hc, if_neg hc, ih]
      obtain ⟨ps, hps⟩ := split_eq_cons sep s
      rw [hps]
      rfl

theorem prefix_join (sep s : Text) (l : List Text) : s <+: join sep (s :: l) := by
  cases l with
  | nil => exact List.prefix_rfl
  | cons t l =>
    rw [join, List.append_assoc]
    exact List.prefix_append _ _

theorem split_join (hne : l ≠ []) (h : ∀ s ∈ l, sep ∉ s) : split sep (join [sep] l) = l := by
  induction l with
  | nil => exact absurd rfl hne
  | cons s l ih =>
    obtain ⟨hs, hl⟩ := List.forall_mem_cons.1 h
    cases l with
    | nil => exact split_of_notMem hs
    | cons u l =>
      rw [join_cons (List.cons_ne_nil u l), List.append_assoc]
      exact (split_append_cons hs _).trans (congrArg _ (ih (List.cons_ne_nil u l) hl))

/-- A character that does not separate is in a text if it is in one of the parts. -/
theorem mem_iff_exists_mem_split (hc : c ≠ sep) : c ∈ t ↔ ∃ s ∈ split sep t, c ∈ s := by
  induction t with
  | nil => simp [split]
  | cons d t ih =>
    obtain ⟨ps, hps⟩ := split_eq_cons sep t
    rw [split, List.mem_cons, ih]
    split
    · next hd =>
      have hcd : c ≠ d := fun heq => hc (heq.trans hd)
      simp [hcd]
    · rw [hps]
      simp only [List.mem_cons, or_and_right, exists_or, exists_eq_left, or_assoc]

end Pagewright.Text
