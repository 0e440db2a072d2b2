import Mathlib.Data.List.Basic
import Pagewright.Text.Basic

/-!
# The order of texts

Texts are put in order by their first different characters, and a text comes before those that it begins. This is a
total order (`Text.compare_eq_iff`, and an instance for `Std.TransCmp`), and the characters where two texts differ
first decide it (`Text.compare_of_firstDifference?`).
-/

namespace Pagewright.Text

open Std

theorem compare_eq_iff (s t : Text) : compare s t = .eq ↔ s = t := by
  induction s generalizing t with
  | nil => cases t <;> simp [compare]
  | cons a s ih =>
    cases t with
    | nil => simp [compare]
    | cons b t =>
      have hab : Ord.compare a.toNat b.toNat = .eq ↔ a = b := by
        rw [Nat.compare_eq_eq]
        exact ⟨fun h => Char.ext (UInt32.toNat_inj.1 h), fun h => h ▸ rfl⟩
      rw [compare]
      split
      · next h => rw [ih, List.cons.injEq, and_iff_right (hab.1 h)]
      · next h => exact ⟨fun heq => absurd heq h, fun heq => absurd (hab.2 (List.cons.inj heq).1) h⟩

theorem compare_swap (s t : Text) : (compare s t).swap = compare t s := by
  induction s generalizing t with
  | nil => cases t <;> rfl
  | cons a s ih =>
    cases t with
    | nil => rfl
    | cons b t =>
      rw [compare, compare, ← Nat.compare_swap b.toNat a.toNat]
      cases Ord.compare b.toNat a.toNat with
      | eq => exact ih t
      | lt => rfl
      | gt => rfl

theorem compare_eq_compareLex : compare = List.compareLex (compareOn Char.toNat) := by
  funext s t
  induction s generalizing t with
  | nil => cases t <;> rfl
  | cons a s ih =>
    cases t with
    | nil => rfl
    | cons b t =>
      rw [compare, ih, List.compareLex_cons_cons, compareOn]
      cases Ord.compare a.toNat b.toNat <;> rfl

instance : TransCmp compare := by
  rw [compare_eq_compareLex]
  infer_instance

/-! ## The first difference -/

/-- The characters of two texts where they differ first, if neither text begins the other one. -/
def firstDifference? : Text → Text → Option (Char × Char)
  | c :: s, d :: t => if c = d then firstDifference? s t else some (c, d)
  | _, _ => none

theorem firstDifference?_self (t : Text) : firstDifference? t t = none := by
  induction t with
  | nil => rfl
  | cons c t ih => rw [firstDifference?, if_pos rfl, ih]

theorem compare_of_firstDifference? {s t : Text} {c d : Char} (h : firstDifference? s t = some (c, d)) :
    c ≠ d ∧ compare s t = Ord.compare c.toNat d.toNat := by
  induction s generalizing t with
  | nil => cases h
  | cons a s ih =>
    cases t with
    | nil => cases h
    | cons b t =>
      rw [firstDifference?] at h
      rw [compare]
      split at h
      · next hab =>
        have hsame : Ord.compare a.toNat b.toNat = .eq := Nat.compare_eq_eq.2 (congrArg Char.toNat hab)
        rw [hsame]
        exact ih h
      · next hab =>
        obtain ⟨rfl, rfl⟩ := Prod.mk.inj (Option.some.inj h)
        refine ⟨hab, ?_⟩
        split
        · next hsame => exact absurd (Char.ext (UInt32.toNat_inj.1 (Nat.compare_eq_eq.1 hsame))) hab
        · rfl

theorem firstDifference?_comm (s t : Text) : firstDifference? s t = (firstDifference? t s).map Prod.swap := by
  induction s generalizing t with
  | nil => cases t <;> rfl
  | cons a s ih =>
    cases t with
    | nil => rfl
    | cons b t =>
      rw [firstDifference?, firstDifference?]
      by_cases hab : a = b
      · rw [if_pos hab, if_pos hab.symm, ih]
      · rw [if_neg hab, if_neg (Ne.symm hab)]
        rfl

end Pagewright.Text
