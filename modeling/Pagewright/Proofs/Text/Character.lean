import Pagewright.Text.Alphanumeric
import Pagewright.Text.Basic
import Pagewright.Text.Lowercase

/-!
# Kinds of characters

White space is neither a letter nor a number of any script, so it ends every name; and a letter stays a letter when
its case is changed. Tables of characters are compared as sets of code points, which are the bits of a number
(`rangeBits`).
-/

namespace Pagewright.Text

variable {c d : Char} {n : Nat}

/-! ## Sets of code points as the bits of a number -/

/-- The union of sets, one for each member of a list. -/
def union {α : Type} (f : α → Nat) (l : List α) : Nat := l.foldr (fun a bits => f a ||| bits) 0

theorem testBit_union {α : Type} {f : α → Nat} {l : List α} : (union f l).testBit n ↔ ∃ a ∈ l, (f a).testBit n := by
  induction l with
  | nil => simp [union]
  | cons a l ih =>
    rw [union] at ih ⊢
    rw [List.foldr_cons, Nat.testBit_or, Bool.or_eq_true, ih]
    simp

/-- The code points in ranges. -/
def rangeBits (ranges : List (Nat × Nat)) : Nat := union (fun r => (1 <<< (r.2 + 1 - r.1) - 1) <<< r.1) ranges

theorem testBit_rangeBits {ranges : List (Nat × Nat)} :
    (rangeBits ranges).testBit n ↔ ∃ r ∈ ranges, r.1 ≤ n ∧ n ≤ r.2 := by
  rw [rangeBits, testBit_union]
  refine exists_congr fun r => and_congr_right fun _ => ?_
  rw [Nat.testBit_shiftLeft, Nat.one_shiftLeft, Nat.testBit_two_pow_sub_one, Bool.and_eq_true, decide_eq_true_eq, decide_eq_true_eq]
  omega

theorem testBit_rangeBits_of_inRanges {ranges : List (Nat × Nat)} (h : inRanges n ranges) :
    (rangeBits ranges).testBit n := by
  rw [testBit_rangeBits]
  induction ranges with
  | nil => cases h
  | cons r ranges ih =>
    rw [inRanges] at h
    split at h
    · cases h
    · next hlo =>
      rcases Bool.or_eq_true_iff.1 h with hhi | hrest
      · exact ⟨r, List.mem_cons_self, Nat.not_lt.1 hlo, of_decide_eq_true hhi⟩
      · obtain ⟨r', hr', hin⟩ := ih hrest
        exact ⟨r', List.mem_cons_of_mem _ hr', hin⟩

/-! ## White space -/

private def blankRanges : List (Nat × Nat) :=
  [(9, 13), (0x20, 0x20), (0x85, 0x85), (0xA0, 0xA0), (0x1680, 0x1680), (0x2000, 0x200A), (0x2028, 0x2029),
    (0x202F, 0x202F), (0x205F, 0x205F), (0x3000, 0x3000)]

private theorem testBit_blanks (h : isBlank c) : (rangeBits blankRanges).testBit c.toNat := by
  rw [testBit_rangeBits]
  simp only [isBlank, Bool.or_eq_true, Bool.and_eq_true, decide_eq_true_eq, beq_iff_eq] at h
  simp only [blankRanges, List.mem_cons, List.not_mem_nil, or_false, exists_eq_or_imp, exists_eq_left]
  omega

private theorem blanks_spec : rangeBits blankRanges &&& (rangeBits alphabeticRanges ||| rangeBits numericRanges) = 0 := by
  decide +kernel

theorem isAlphanumeric_of_isBlank (h : isBlank c) : isAlphanumeric c = false := by
  have hnone := congrArg (·.testBit c.toNat) blanks_spec
  simp only [Nat.testBit_and, Nat.testBit_or, testBit_blanks h, Bool.true_and, Nat.zero_testBit,
    Bool.or_eq_false_iff] at hnone
  have hout : ∀ ranges, (rangeBits ranges).testBit c.toNat = false → inRanges c.toNat ranges = false := by
    intro ranges hbit
    cases hin : inRanges c.toNat ranges with
    | false => rfl
    | true =>
      rw [testBit_rangeBits_of_inRanges hin] at hbit
      cases hbit
  rw [isAlphanumeric, isAlphabetic, isNumeric, hout _ hnone.1, hout _ hnone.2]
  rfl

/-! ## Case -/

theorem toNat_ofNat_of_isValidChar (h : n.isValidChar) : (Char.ofNat n).toNat = n := by
  rw [Char.ofNat, dif_pos h]
  rfl

private theorem le_lowercaseRuns : ∀ run ∈ lowercaseRuns, 0x61 ≤ run.2.2.2 := by
  decide +kernel

private theorem lowerCode_eq_or_le {runs : List (Nat × Nat × Nat × Nat)} (h : ∀ run ∈ runs, 0x61 ≤ run.2.2.2)
    (n : Nat) : lowerCode n runs = n ∨ 0x61 ≤ lowerCode n runs := by
  induction runs with
  | nil => exact Or.inl rfl
  | cons run runs ih =>
    obtain ⟨lo, hi, step, target⟩ := run
    obtain ⟨htarget, hruns⟩ := List.forall_mem_cons.1 h
    rw [lowerCode]
    split
    · exact Or.inl rfl
    · split
      · exact Or.inr (Nat.le_add_right_of_le htarget)
      · exact ih hruns

/-- Lower case brings up no other sign, digit or control character. -/
theorem notMem_lower (hpos : 0 < d.toNat) (hd : d.toNat < 0x61) (hc : c ≠ d) : d ∉ lower c := by
  have hne : ∀ n, 0x61 ≤ n → d ≠ Char.ofNat n := by
    rintro n hn rfl
    by_cases hvalid : n.isValidChar
    · rw [toNat_ofNat_of_isValidChar hvalid] at hd
      omega
    · rw [Char.ofNat, dif_neg hvalid] at hpos
      exact absurd hpos (by decide)
  unfold lower
  split
  · simp only [List.mem_cons, List.not_mem_nil, or_false, not_or]
    exact ⟨hne _ (by omega), hne _ (by omega)⟩
  · rw [List.mem_singleton]
    rcases lowerCode_eq_or_le le_lowercaseRuns c.toNat with h | h
    · rw [h, Char.ofNat_toNat]
      exact hc.symm
    · exact hne _ h

/-- A letter does not become a sign or a digit when its case is changed. -/
theorem asciiLower_ne_of_isAlpha (hc : c.isAlpha) (hd : d.toNat < 65) : asciiLower c ≠ d := by
  rintro rfl
  have halpha : (65 ≤ c.toNat ∧ c.toNat ≤ 90) ∨ (97 ≤ c.toNat ∧ c.toNat ≤ 122) := by
    delta Char.isAlpha Char.isUpper Char.isLower at hc
    simpa [UInt32.le_iff_toNat_le] using hc
  unfold asciiLower at hd
  split at hd
  · next hupper =>
    simp only [Bool.and_eq_true, decide_eq_true_eq] at hupper
    rw [toNat_ofNat_of_isValidChar (Or.inl (by omega))] at hd
    omega
  · omega

/-! ## Case -/

theorem sameIgnoringAsciiCase_iff {s t : Text} : sameIgnoringAsciiCase s t ↔ s.map asciiLower = t.map asciiLower :=
  beq_iff_eq

theorem length_eq_of_same {s t : Text} (h : sameIgnoringAsciiCase s t) : s.length = t.length := by
  simpa using congrArg List.length (sameIgnoringAsciiCase_iff.1 h)

end Pagewright.Text
