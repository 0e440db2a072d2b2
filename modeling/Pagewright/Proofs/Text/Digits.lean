import Mathlib.Data.List.Forall2
import Pagewright.Text.Basic

/-!
# Digits of a base

A text is read as a number if and only if it is a row of digits, and then the number is the one with these digits
(`Text.natOfDigits?_eq_some_iff`). Decimal digits are those of `Text.isDigit`, hexadecimal digits those of the numbers
below sixteen in either case (`Text.IsHexDigit`).
-/

namespace Pagewright.Text

variable {base m n v : Nat} {c : Char} {t : Text}

/-- The digits below ten, and from ten on the letters in either case. -/
theorem digitValue?_eq_some_iff : digitValue? c = some v ↔
    c.toNat = v + 48 ∧ v < 10 ∨ (c.toNat = v + 87 ∨ c.toNat = v + 55) ∧ 10 ≤ v ∧ v < 36 := by
  unfold digitValue?
  simp only [Bool.and_eq_true, decide_eq_true_eq]
  split
  · simp only [Option.some.injEq]
    omega
  · split
    · simp only [Option.some.injEq]
      omega
    · split
      · simp only [Option.some.injEq]
        omega
      · simp only [reduceCtorEq, false_iff]
        omega

/-- The character is a digit of the base and stands for a value. -/
def IsDigitOf (base : Nat) (c : Char) (v : Nat) : Prop := digitValue? c = some v ∧ v < base

/-- The number with some digits, read on from another number. -/
def digitsFrom (base m : Nat) (vs : List Nat) : Nat := vs.foldl (fun n v => n * base + v) m

private theorem foldl_none : t.foldl (fun acc c => do
    let n ← acc
    let d ← digitValue? c
    if d < base then some (n * base + d) else none) none = none := by
  induction t with
  | nil => rfl
  | cons c t ih => exact ih

private theorem foldl_eq_some_iff : t.foldl (fun acc c => do
      let n ← acc
      let d ← digitValue? c
      if d < base then some (n * base + d) else none) (some m) = some n ↔
    ∃ vs, List.Forall₂ (IsDigitOf base) t vs ∧ digitsFrom base m vs = n := by
  induction t generalizing m with
  | nil => simp [digitsFrom]
  | cons c t ih =>
    rw [List.foldl_cons, Option.bind_eq_bind, Option.bind_some]
    constructor
    · intro h
      cases hv : digitValue? c with
      | none =>
        rw [hv] at h
        exact absurd (foldl_none.symm.trans h) (by simp)
      | some v =>
        rw [hv, Option.bind_some] at h
        split at h
        · next hlt =>
          obtain ⟨vs, hvs, hn⟩ := ih.1 h
          exact ⟨v :: vs, .cons ⟨hv, hlt⟩ hvs, hn⟩
        · exact absurd (foldl_none.symm.trans h) (by simp)
    · rintro ⟨_, _ | ⟨⟨hv, hlt⟩, hvs⟩, hn⟩
      rw [hv, Option.bind_some, if_pos hlt]
      exact ih.2 ⟨_, hvs, hn⟩

/-- A text is read as a number if it is a row of digits. -/
theorem natOfDigits?_eq_some_iff :
    natOfDigits? base t = some n ↔
      t ≠ [] ∧ ∃ vs, List.Forall₂ (IsDigitOf base) t vs ∧ digitsFrom base 0 vs = n := by
  cases t with
  | nil => simp [natOfDigits?]
  | cons c t =>
    rw [natOfDigits?, foldl_eq_some_iff]
    · simp
    · simp

theorem exists_isDigitOf_of_mem (h : natOfDigits? base t = some n) (hc : c ∈ t) : ∃ v, IsDigitOf base c v := by
  obtain ⟨-, vs, hvs, -⟩ := natOfDigits?_eq_some_iff.1 h
  clear h
  induction hvs with
  | nil => cases hc
  | cons hv _ ih =>
    rcases List.mem_cons.1 hc with rfl | hc
    · exact ⟨_, hv⟩
    · exact ih hc

/-- Every digit takes one byte. -/
theorem IsDigitOf.utf8Size_eq_one (h : IsDigitOf base c v) : c.utf8Size = 1 := by
  have hc : c.toNat ≤ 127 := by
    have hvalue := digitValue?_eq_some_iff.1 h.1
    omega
  apply Char.utf8Size_eq_one_iff.2
  rw [UInt32.le_iff_toNat_le]
  exact hc

/-! ## Decimal digits -/

theorem isDigitOf_of_isDigit (h : isDigit c) : IsDigitOf 10 c (c.toNat - 48) := by
  have hrange : 48 ≤ c.toNat ∧ c.toNat ≤ 57 := by simpa [isDigit] using h
  refine ⟨digitValue?_eq_some_iff.2 ?_, ?_⟩
  · omega
  · omega

theorem IsDigitOf.isDigit (h : IsDigitOf 10 c v) : isDigit c := by
  obtain ⟨hvalue, hten⟩ := h
  have hc := digitValue?_eq_some_iff.1 hvalue
  have hrange : 48 ≤ c.toNat ∧ c.toNat ≤ 57 := by omega
  simpa [Text.isDigit] using hrange

/-! ## Hexadecimal digits -/

/-- The character is a hexadecimal digit and stands for a value. -/
def IsHexDigit (c : Char) (v : Nat) : Prop := v < 16 ∧ (c = Nat.digitChar v ∨ c = (Nat.digitChar v).toUpper)

theorem isDigitOf_iff_isHexDigit : IsDigitOf 16 c v ↔ IsHexDigit c v := by
  have hvalues : ∀ v < 16, digitValue? (Nat.digitChar v) = some v ∧ digitValue? (Nat.digitChar v).toUpper = some v := by
    decide
  have hchars : ∀ v < 16, (v < 10 → Char.ofNat (v + 48) = Nat.digitChar v) ∧
      (10 ≤ v → Char.ofNat (v + 87) = Nat.digitChar v ∧ Char.ofNat (v + 55) = (Nat.digitChar v).toUpper) := by
    decide
  have hc : Char.ofNat c.toNat = c := Char.ofNat_toNat c
  constructor
  · rintro ⟨hvalue, hv⟩
    refine ⟨hv, ?_⟩
    rcases digitValue?_eq_some_iff.1 hvalue with ⟨hcode, hten⟩ | ⟨hcode | hcode, hten, -⟩
    · exact Or.inl (by rw [← (hchars v hv).1 hten, ← hcode, hc])
    · exact Or.inl (by rw [← ((hchars v hv).2 hten).1, ← hcode, hc])
    · exact Or.inr (by rw [← ((hchars v hv).2 hten).2, ← hcode, hc])
  · rintro ⟨hv, rfl | rfl⟩
    · exact ⟨(hvalues v hv).1, hv⟩
    · exact ⟨(hvalues v hv).2, hv⟩

end Pagewright.Text
