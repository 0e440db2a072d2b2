import Pagewright.Proofs.Binary64.Decimal
import Pagewright.Proofs.Binary64.Order

/-!
# Whole numbers as texts

A whole number that is written without an exponent can be read as an index. Three things live here:

* what rounding gives is a number of the format (`canonical_of_ofUnits`, `ofInt_cases`);
* the text of an integer below `2 ^ 53` has digits only: the search for the shortest digits begins above the point and
  ends there at the latest, since an integer is on the grid of the integers (`shortest_nonneg`);
* digits alone are read as an integer that is rounded to the same number, and such integers are on the same side of all
  bounds up to `2 ^ 53` (`digitsValue_plainText_lt_iff`).
-/

namespace Pagewright.Binary64

variable {negative s : Bool} {b d den e fuel i m n units : Nat} {j k : Int} {c : Char}

/-! ## Numbers of the format -/

theorem canonical_of_ofUnits (hden : 0 < den) (h : ofUnits negative units den = .finite s m e) : Canonical m e := by
  have hle : roundedQuotient units (den * powerOfTwo (unitsExponent units den)) ≤ powerOfTwo 53 := significand_le hden
  have hge : unitsExponent units den ≠ 0 →
      powerOfTwo 52 ≤ roundedQuotient units (den * powerOfTwo (unitsExponent units den)) := le_significand hden
  unfold ofUnits at h
  simp only [← unitsExponent.eq_def] at h
  generalize roundedQuotient units (den * powerOfTwo (unitsExponent units den)) = q at hle hge h
  generalize unitsExponent units den = x at hge h
  rcases hle.eq_or_lt with rfl | hlt
  · rw [if_pos rfl] at h
    dsimp only at h
    split at h
    · next hexp =>
      cases h
      exact ⟨powerOfTwo_lt (by omega), Or.inr le_rfl, hexp⟩
    · cases h
  · rw [if_neg hlt.ne] at h
    dsimp only at h
    split at h
    · next hexp =>
      cases h
      exact ⟨hlt, or_iff_not_imp_left.2 hge, hexp⟩
    · cases h

/-- Rounding keeps the order with integers that are not rounded. -/
theorem nearest_lt_iff (hn : n ≤ powerOfTwo 53) : nearest i < nearest n ↔ i < n := by
  constructor
  · intro h
    by_contra hle
    exact (nearest_mono (Int.ofNat_le.2 (Nat.not_lt.1 hle))).not_gt h
  · intro h
    have hpos : (0 : Int) < powerOfTwo 1074 := Int.natCast_pos.2 (powerOfTwo_pos 1074)
    rw [nearest_exact (i := i) (h.le.trans hn), nearest_exact (i := n) hn]
    exact Int.mul_lt_mul_of_pos_right (Int.ofNat_lt.2 h) hpos

theorem nearest_eq_of_ofInt_eq (h : ofInt j = ofInt k) : nearest j = nearest k := by
  have hposition := congrArg position? h
  rw [position?_ofInt, position?_ofInt] at hposition
  exact Option.some.inj hposition

/-- The number nearest to a positive integer: beyond the format, or at the place where the integer is rounded to. -/
theorem ofInt_cases (hi : 0 < i) : ofInt i = .infinite false ∨
    ∃ m e, ofInt i = .finite false m e ∧ m ≠ 0 ∧ Canonical m e ∧ ((m * powerOfTwo e : Nat) : Int) = nearest i := by
  have hzero : nearest 0 = 0 := by
    rw [nearest_exact (i := 0) (Nat.zero_le _), Int.zero_mul]
  have hpos : 0 < nearest i := by
    have hone : nearest (0 : Nat) < nearest (1 : Nat) := (nearest_lt_iff (powerOfTwo_pos 53)).2 Nat.one_pos
    have hle : nearest (1 : Nat) ≤ nearest i := nearest_mono (Int.ofNat_le.2 hi)
    rw [Int.natCast_zero, hzero] at hone
    exact hone.trans_le hle
  have hposition := position?_ofInt i
  cases hx : ofInt i with
  | nan =>
    rw [hx] at hposition
    cases hposition
  | infinite s =>
    cases s with
    | false => exact Or.inl rfl
    | true =>
      rw [hx] at hposition
      have hplace : -(powerOfTwo 2100 : Int) = nearest i := Option.some.inj hposition
      omega
  | finite s m e =>
    have hcanonical : Canonical m e := by
      rw [ofInt, ofRatio] at hx
      exact canonical_of_ofUnits Nat.one_pos hx
    rw [hx] at hposition
    cases s with
    | true =>
      have hplace : -((m * powerOfTwo e : Nat) : Int) = nearest i := Option.some.inj hposition
      omega
    | false =>
      have hplace : ((m * powerOfTwo e : Nat) : Int) = nearest i := Option.some.inj hposition
      refine Or.inr ⟨m, e, rfl, ?_, hcanonical, hplace⟩
      rintro rfl
      rw [Nat.zero_mul] at hplace
      omega

theorem ofInt_ne_infinite (hlt : i < powerOfTwo 53) : ofInt i ≠ .infinite false := by
  intro hx
  have hposition := position?_ofInt i
  rw [hx, nearest_exact (i := i) hlt.le] at hposition
  have hplace : (powerOfTwo 2100 : Int) = i * powerOfTwo 1074 := Option.some.inj hposition
  have hsmall : i * powerOfTwo 1074 < powerOfTwo 2100 := by
    calc i * powerOfTwo 1074 < powerOfTwo 53 * powerOfTwo 1074 := Nat.mul_lt_mul_of_pos_right hlt (powerOfTwo_pos _)
      _ = powerOfTwo (53 + 1074) := (powerOfTwo_add 53 1074).symm
      _ ≤ powerOfTwo 2100 := powerOfTwo_le (by omega)
  rw [← Int.natCast_mul] at hplace
  exact hsmall.ne' (Int.natCast_inj.1 hplace)

/-- Digits in front of the point are the integer that they stand for. -/
theorem ofDecimal_eq_ofInt (hd : d ≠ 0) (hk : 0 ≤ k) :
    ofDecimal false d k = ofInt ((d * powerOfTen k.toNat : Nat) : Int) := by
  have hden : (-k).toNat = 0 := by omega
  have hneg : decide (((d * powerOfTen k.toNat : Nat) : Int) < 0) = false := decide_eq_false (by omega)
  rw [ofDecimal_eq_ofRatio hd, hden, powerOfTen_zero, ofInt, hneg, Int.natAbs_natCast]

/-! ## Where the search ends -/

theorem le_dropZeros (fuel d : Nat) (k : Int) : k ≤ (dropZeros fuel d k).2 := by
  induction fuel generalizing d k with
  | zero => exact le_rfl
  | succ fuel ih =>
    rw [dropZeros]
    split
    · exact (Int.le.intro 1 rfl).trans (ih _ _)
    · exact le_rfl

section Search

-- the numbers on a grid must not be computed when the search is opened
attribute [local irreducible] onGrid?

/-- A number on the grid of the integers is found there or above. -/
theorem searchGrids_nonneg (h : (onGrid? m e 0).isSome) (hk : 0 ≤ k) (hn : k < n) : 0 ≤ (searchGrids m e k n).2 := by
  induction n generalizing k with
  | zero => omega
  | succ n ih =>
    rw [searchGrids_succ]
    split
    · exact hk
    · next hnone =>
      have hne : k ≠ 0 := by
        rintro rfl
        rw [hnone] at h
        cases h
      exact ih (by omega) (by omega)

end Search

/-- An integer is on the grid of the integers. -/
theorem isSome_onGrid?_zero (hplace : m * powerOfTwo e = i * powerOfTwo 1074) (hx : ofInt i = .finite false m e)
    (hi : 0 < i) : (onGrid? m e 0).isSome := by
  have hnonneg : (0 : Int) ≥ 0 := le_rfl
  have hten : powerOfTen (Int.toNat 0) = 1 := rfl
  have hquot : i * powerOfTwo 1074 / powerOfTwo 1074 = i := Nat.mul_div_cancel _ (powerOfTwo_pos 1074)
  have hrest : i * powerOfTwo 1074 % powerOfTwo 1074 = 0 := Nat.mul_mod_left _ _
  have hlow : 2 * 0 < powerOfTwo 1074 := powerOfTwo_pos 1074
  have hread : ofDecimal false i 0 = .finite false m e := by
    rw [ofDecimal_eq_ofInt hi.ne' le_rfl, hten, Nat.mul_one, hx]
  have hfirst : (ofDecimal false i 0 == .finite false m e) = true := beq_iff_eq.2 hread
  simp only [onGrid?, if_pos hnonneg, hten, Nat.mul_one, hplace, hquot, hrest, decide_eq_true hlow, Bool.true_or,
    if_true, hfirst, Option.isSome_some]

theorem log2_powerOfTwo (n : Nat) : (powerOfTwo n).log2 = n := Nat.log2_two_pow

theorem reachesPower_natCast (hden : 0 < den) (i n : Nat) :
    reachesPower (i * den) den n = decide (powerOfTen n ≤ i) := by
  rw [reachesPower, if_pos (Int.natCast_nonneg n), Int.toNat_natCast, Nat.mul_comm den]
  exact decide_eq_decide.2 (Nat.mul_le_mul_right_iff hden)

/-- The leading digit of an integer below `2 ^ 53` is in front of the point, and no more than 16 places. -/
theorem leadingExponent_bounds (hi : 0 < i) (hlt : i < powerOfTwo 53) :
    0 ≤ leadingExponent (i * powerOfTwo 1074) (powerOfTwo 1074) ∧
      leadingExponent (i * powerOfTwo 1074) (powerOfTwo 1074) < 17 := by
  have hnum : (i * powerOfTwo 1074).log2 = i.log2 + 1074 := log2_mul_powerOfTwo hi.ne'
  have hden : (powerOfTwo 1074).log2 = 1074 := log2_powerOfTwo 1074
  have hlog : i.log2 < 53 := (Nat.log2_lt hi.ne').2 hlt
  have hreaches := reachesPower_natCast (powerOfTwo_pos 1074) i
  have hfirst : reachesPower (i * powerOfTwo 1074) (powerOfTwo 1074) (0 : Nat) = true := by
    rw [hreaches]
    exact decide_eq_true hi
  have hlast : reachesPower (i * powerOfTwo 1074) (powerOfTwo 1074) (17 : Nat) = false := by
    have hten : powerOfTwo 53 ≤ powerOfTen 17 := by decide
    rw [hreaches]
    exact decide_eq_false (Nat.not_le.2 (hlt.trans_le hten))
  unfold leadingExponent
  rw [hnum, hden]
  -- the guess lies between 0 and 15, and where its correction would leave the range the power there forbids it
  generalize hguess : (((i.log2 + 1074 : Nat) : Int) - (1074 : Nat)) * 30103 / 100000 = guess
  have hbounds : 0 ≤ guess ∧ guess ≤ 15 := by omega
  dsimp only
  split
  · next hreach =>
    have hne : guess + 2 ≠ 17 := by
      intro heq
      rw [heq] at hreach
      exact absurd (hlast.symm.trans hreach) (by decide)
    omega
  · split
    · omega
    · split
      · omega
      · next hreach =>
        have hne : guess ≠ 0 := by
          rintro rfl
          exact hreach hfirst
        omega

/-- The shortest digits of an integer below `2 ^ 53` are in front of the point. -/
theorem shortest_nonneg (hi : 0 < i) (hlt : i < powerOfTwo 53) (hx : ofInt i = .finite false m e)
    (hplace : m * powerOfTwo e = i * powerOfTwo 1074) : 0 ≤ (shortest m e).2 := by
  obtain ⟨hstart, hend⟩ := leadingExponent_bounds hi hlt
  unfold shortest
  rw [hplace]
  exact (searchGrids_nonneg (isSome_onGrid?_zero hplace hx hi) hstart hend).trans (le_dropZeros _ _ _)

/-! ## The text of a whole number -/

theorem isDigit_positional (hk : 0 ≤ k) : ∀ c ∈ positional d k, Text.isDigit c := by
  intro c hc
  rw [positional, if_pos hk] at hc
  rcases List.mem_append.1 hc with hc | hc
  · exact isDigit_of_mem_ofNat hc
  · rw [List.eq_of_mem_replicate hc]
    rfl

theorem digitsValue_positional (hk : 0 ≤ k) : digitsValue (positional d k) = d * powerOfTen k.toNat := by
  rw [positional, if_pos hk, digitsValue_append_zeros, digitsValue_ofNat]

/-- A positional text with digits behind the point has a point. -/
theorem point_mem_positional (hk : ¬ 0 ≤ k) : '.' ∈ positional d k := by
  rw [positional, if_neg hk, withPoint]
  split <;> simp

theorem mem_positional (hc : c ∈ positional d k) : Text.isDigit c ∨ c = '.' := by
  have hzeros : ∀ n, c ∈ List.replicate n '0' → Text.isDigit c := by
    intro n hmem
    rw [List.eq_of_mem_replicate hmem]
    rfl
  by_cases hk : 0 ≤ k
  · exact Or.inl (isDigit_positional hk c hc)
  · rw [positional, if_neg hk, withPoint] at hc
    split at hc
    · rcases List.mem_append.1 hc with hc | hc
      · rcases List.mem_append.1 hc with hc | hc
        · have hpoint : c = '0' ∨ c = '.' := by simpa using hc
          exact hpoint.imp_left fun h => by rw [h]; rfl
        · exact Or.inl (hzeros _ hc)
      · exact Or.inl (isDigit_of_mem_ofNat hc)
    · rcases List.mem_append.1 hc with hc | hc
      · exact Or.inl (isDigit_of_mem_ofNat (List.mem_of_mem_take hc))
      · rcases List.mem_cons.1 hc with rfl | hc
        · exact Or.inr rfl
        · exact Or.inl (isDigit_of_mem_ofNat (List.mem_of_mem_drop hc))

theorem plainText_finite (hm : m ≠ 0) :
    plainText (.finite false m e) = positional (shortest m e).1 (shortest m e).2 := by
  rw [plainText, signText, if_neg Bool.false_ne_true, List.nil_append, if_neg hm]

theorem ofInt_zero : ofInt 0 = .finite false 0 0 := by
  refine ofRatio_zero Nat.one_pos ?_
  rw [Int.natAbs_zero, Nat.zero_mul]
  exact Nat.zero_le 1

theorem plainText_zero : plainText (ofInt (0 : Nat)) = ['0'] := by
  rw [Int.natCast_zero, ofInt_zero]
  rfl

theorem positional_ne_nil (d : Nat) (k : Int) : positional d k ≠ [] := by
  by_cases hk : 0 ≤ k
  · rw [positional, if_pos hk]
    exact List.append_ne_nil_of_left_ne_nil Nat.toDigits_ne_nil _
  · exact List.ne_nil_of_mem (point_mem_positional hk)

theorem plainText_ne_nil (i : Nat) : plainText (ofInt i) ≠ [] := by
  rcases Nat.eq_zero_or_pos i with rfl | hi
  · rw [plainText_zero]
    exact List.cons_ne_nil _ _
  · rcases ofInt_cases hi with hx | ⟨m, e, hx, hm, -, -⟩
    · rw [hx]
      decide
    · rw [hx, plainText_finite hm]
      exact positional_ne_nil _ _

/-- The characters that whole numbers are written with. -/
theorem mem_plainText (hc : c ∈ plainText (ofInt i)) : Text.isDigit c ∨ c ∈ ['.', 'i', 'n', 'f'] := by
  rcases Nat.eq_zero_or_pos i with rfl | hi
  · rw [plainText_zero] at hc
    obtain rfl : c = '0' := List.mem_singleton.1 hc
    exact Or.inl rfl
  · rcases ofInt_cases hi with hx | ⟨m, e, hx, hm, -, -⟩
    · rw [hx] at hc
      exact Or.inr (List.mem_cons_of_mem _ hc)
    · rw [hx, plainText_finite hm] at hc
      exact (mem_positional hc).imp_right fun hpoint => by rw [hpoint]; exact List.mem_cons_self

/-- An integer below `2 ^ 53` is written with digits only. -/
theorem isDigit_plainText (hlt : i < powerOfTwo 53) : ∀ c ∈ plainText (ofInt i), Text.isDigit c := by
  rcases Nat.eq_zero_or_pos i with rfl | hi
  · intro c hc
    rw [plainText_zero] at hc
    obtain rfl : c = '0' := List.mem_singleton.1 hc
    rfl
  · rcases ofInt_cases hi with hx | ⟨m, e, hx, hm, -, hplace⟩
    · exact absurd hx (ofInt_ne_infinite hlt)
    · have hexact : m * powerOfTwo e = i * powerOfTwo 1074 := by
        rw [nearest_exact (i := i) hlt.le] at hplace
        exact_mod_cast hplace
      rw [hx, plainText_finite hm]
      exact isDigit_positional (shortest_nonneg hi hlt hx hexact)

/-- Digits alone are read as an integer that is rounded to the same number. -/
theorem nearest_digitsValue (h : ∀ c ∈ plainText (ofInt i), Text.isDigit c) :
    nearest (digitsValue (plainText (ofInt i)) : Nat) = nearest i := by
  rcases Nat.eq_zero_or_pos i with rfl | hi
  · rw [plainText_zero]
    rfl
  · rcases ofInt_cases hi with hx | ⟨m, e, hx, hm, hcanonical, -⟩
    · rw [hx] at h
      exact absurd (h 'i' (by decide)) (by decide)
    · obtain ⟨hne, hval⟩ := shortest_spec hm hcanonical
      have htext : plainText (ofInt i) = positional (shortest m e).1 (shortest m e).2 := by
        rw [hx, plainText_finite hm]
      rw [htext] at h ⊢
      have hk : 0 ≤ (shortest m e).2 := by
        by_contra hk
        exact absurd (h '.' (point_mem_positional hk)) (by decide)
      rw [digitsValue_positional hk]
      rw [ofDecimal_eq_ofInt hne hk, ← hx] at hval
      exact nearest_eq_of_ofInt_eq hval

/-- The digits of a whole number stand for one that is below the same bounds, as far as integers are exact. -/
theorem digitsValue_plainText_lt_iff (h : ∀ c ∈ plainText (ofInt i), Text.isDigit c) (hb : b ≤ powerOfTwo 53) :
    digitsValue (plainText (ofInt i)) < b ↔ i < b := by
  rw [← nearest_lt_iff hb, nearest_digitsValue h, nearest_lt_iff hb]

end Pagewright.Binary64
