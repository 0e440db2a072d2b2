import Mathlib.Tactic.Ring
import Pagewright.Binary64.Basic

/-!
# Rounding quotients

`ofRatio` depends on the quotient alone and not on how it is written (`ofRatio_congr`), and a quotient that
is a number of the format is that number (`ofRatio_exact`). A decimal number is rounded as the fraction that
it is (`ofDecimal_eq_ofRatio`): the two shortcuts for great and small exponents agree with the rounding.
-/

namespace Pagewright.Binary64

variable {negative s : Bool} {num den num' den' c d m e : Nat} {k : Int}

theorem powerOfTwo_pos (n : Nat) : 0 < powerOfTwo n := Nat.two_pow_pos n

theorem powerOfTen_pos (n : Nat) : 0 < powerOfTen n := Nat.pow_pos (by omega)

theorem powerOfTwo_add (m n : Nat) : powerOfTwo (m + n) = powerOfTwo m * powerOfTwo n :=
  Nat.pow_add 2 m n

theorem powerOfTen_add (m n : Nat) : powerOfTen (m + n) = powerOfTen m * powerOfTen n :=
  Nat.pow_add 10 m n

theorem powerOfTwo_le (h : m ≤ e) : powerOfTwo m ≤ powerOfTwo e := Nat.pow_le_pow_right (by omega) h

/-- A power of ten is more than as many bits times three. -/
theorem powerOfTwo_le_powerOfTen (n : Nat) : powerOfTwo (3 * n) ≤ powerOfTen n := by
  have h : powerOfTwo (3 * n) = 8 ^ n := Nat.pow_mul 2 3 n
  rw [h]
  exact Nat.pow_le_pow_left (by omega) n

/-! ## Quotients -/

/-- The quotient does not change when both sides are multiplied. -/
theorem roundedQuotient_mul (hc : 0 < c) :
    roundedQuotient (num * c) (den * c) = roundedQuotient num den := by
  have hq : num * c / (den * c) = num / den := Nat.mul_div_mul_right num den hc
  have hr : num * c % (den * c) = num % den * c := Nat.mul_mod_mul_right c num den
  have hlt : den * c < 2 * (num % den * c) ↔ den < 2 * (num % den) := by
    rw [← Nat.mul_assoc]
    exact Nat.mul_lt_mul_right hc
  have heq : 2 * (num % den * c) = den * c ↔ 2 * (num % den) = den := by
    rw [← Nat.mul_assoc]
    exact Nat.mul_left_inj (by omega)
  simp only [roundedQuotient, hq, hr, hlt, Bool.or_eq_true, Bool.and_eq_true, beq_iff_eq,
    decide_eq_true_eq, heq]

theorem roundedQuotient_exact (hden : 0 < den) (q : Nat) : roundedQuotient (q * den) den = q := by
  simp only [roundedQuotient, Nat.mul_div_cancel _ hden, Nat.mul_mod_left]
  rw [if_neg]
  simp only [Bool.or_eq_true, Bool.and_eq_true, beq_iff_eq, decide_eq_true_eq]
  omega

/-! ## Units -/

variable {units : Nat}

theorem ofUnits_mul (hc : 0 < c) :
    ofUnits negative (units * c) (den * c) = ofUnits negative units den := by
  have hquot : units * c / (den * c) = units / den := Nat.mul_div_mul_right _ _ hc
  have hden (n : Nat) : den * c * powerOfTwo n = den * powerOfTwo n * c := Nat.mul_right_comm _ _ _
  simp only [ofUnits, hquot, hden, roundedQuotient_mul hc]

/-- The significand has 53 bits, and its leading bit is set unless the exponent is the least. -/
def Canonical (m e : Nat) : Prop := m < powerOfTwo 53 ∧ (e = 0 ∨ powerOfTwo 52 ≤ m) ∧ e ≤ maxExponent

theorem log2_mul_powerOfTwo (hm : m ≠ 0) : (m * powerOfTwo e).log2 = m.log2 + e := by
  have hlow : 2 ^ m.log2 ≤ m := Nat.log2_self_le hm
  have hhigh : m < 2 ^ (m.log2 + 1) := Nat.lt_log2_self
  have hpos := powerOfTwo_pos e
  rw [Nat.log2_eq_iff (Nat.mul_ne_zero hm hpos.ne')]
  constructor
  · rw [Nat.pow_add]
    exact Nat.mul_le_mul_right _ hlow
  · rw [Nat.add_right_comm, Nat.pow_add]
    exact Nat.mul_lt_mul_of_pos_right hhigh hpos

/-- A number of the format is rounded to itself. -/
theorem ofUnits_exact (h : Canonical m e) (hden : 0 < den) :
    ofUnits negative (m * powerOfTwo e * den) den = .finite negative m e := by
  obtain ⟨hm, he, hmax⟩ := h
  have hquot : m * powerOfTwo e * den / den = m * powerOfTwo e := Nat.mul_div_cancel _ hden
  have hexp : (m * powerOfTwo e).log2 - 52 = e := by
    rcases Nat.eq_zero_or_pos m with rfl | hpos
    · have he : e = 0 := he.resolve_right (powerOfTwo_pos 52).not_ge
      rw [he, Nat.zero_mul, Nat.log2_zero]
    · rw [log2_mul_powerOfTwo hpos.ne']
      have hlog : m.log2 < 53 := (Nat.log2_lt hpos.ne').2 hm
      rcases he with rfl | he
      · omega
      · have hlog' : 52 ≤ m.log2 := (Nat.le_log2 hpos.ne').2 he
        omega
  have hround : roundedQuotient (m * powerOfTwo e * den) (den * powerOfTwo e) = m := by
    have hunits : m * powerOfTwo e * den = m * (den * powerOfTwo e) := by ring
    rw [hunits]
    exact roundedQuotient_exact (Nat.mul_pos hden (powerOfTwo_pos _)) m
  simp only [ofUnits, hquot, hexp, hround, if_neg hm.ne, if_pos hmax]

/-! ## Great and small quotients -/

theorem powerOfTwo_le_iff {n : Nat} (hn : n ≠ 0) : powerOfTwo c ≤ n ↔ c ≤ n.log2 :=
  (Nat.le_log2 hn).symm

theorem ofUnits_infinite (hden : 0 < den) (hc : maxExponent + 52 < c)
    (h : powerOfTwo c * den ≤ units) : ofUnits negative units den = .infinite negative := by
  have hquot : powerOfTwo c ≤ units / den := (Nat.le_div_iff_mul_le hden).2 h
  have hpos : 0 < units / den := (powerOfTwo_pos c).trans_le hquot
  have hlog : c ≤ (units / den).log2 := (powerOfTwo_le_iff hpos.ne').1 hquot
  have hexp (a : Nat) : ¬ (if a = powerOfTwo 53 then (powerOfTwo 52, (units / den).log2 - 52 + 1)
      else (a, (units / den).log2 - 52)).2 ≤ maxExponent := by
    split <;> dsimp only <;> omega
  simp only [ofUnits]
  exact if_neg (hexp _)

theorem ofUnits_zero (h : units * 2 < den) :
    ofUnits negative units den = .finite negative 0 0 := by
  have hquot : units / den = 0 := Nat.div_eq_of_lt (by omega)
  have hrem : units % den = units := Nat.mod_eq_of_lt (by omega)
  have hround : roundedQuotient units (den * powerOfTwo 0) = 0 := by
    have hone : den * powerOfTwo 0 = den := Nat.mul_one den
    rw [hone, roundedQuotient, hquot, hrem, if_neg]
    simp only [Bool.or_eq_true, Bool.and_eq_true, beq_iff_eq, decide_eq_true_eq]
    omega
  have hlog : Nat.log2 0 - 52 = 0 := rfl
  simp only [ofUnits, hquot, hlog, hround]
  rfl

/-! ## Quotients that are not in units -/

theorem ofRatio_mul (hc : 0 < c) :
    ofRatio negative (num * c) (den * c) = ofRatio negative num den := by
  rw [ofRatio, ofRatio, Nat.mul_right_comm, ofUnits_mul hc]

/-- Equal quotients are rounded to the same number. -/
theorem ofRatio_congr (hden : 0 < den) (hden' : 0 < den') (h : num * den' = num' * den) :
    ofRatio negative num den = ofRatio negative num' den' := by
  calc ofRatio negative num den = ofRatio negative (num * den') (den * den') := (ofRatio_mul hden').symm
    _ = ofRatio negative (num' * den) (den' * den) := by rw [h, Nat.mul_comm den den']
    _ = ofRatio negative num' den' := ofRatio_mul hden

/-- A number of the format is rounded to itself. -/
theorem ofRatio_exact (h : Canonical m e) :
    ofRatio negative (m * powerOfTwo e) (powerOfTwo 1074) = .finite negative m e := by
  rw [ofRatio, ofUnits_exact h (powerOfTwo_pos 1074)]

theorem ofRatio_infinite (hden : 0 < den) (hc : maxExponent + 52 < c + 1074)
    (h : powerOfTwo c * den ≤ num) : ofRatio negative num den = .infinite negative := by
  have hunits : powerOfTwo (c + 1074) * den ≤ num * powerOfTwo 1074 := by
    rw [powerOfTwo_add, Nat.mul_right_comm]
    exact Nat.mul_le_mul_right _ h
  rw [ofRatio, ofUnits_infinite hden hc hunits]

theorem ofRatio_zero (hden : 0 < den) (h : num * powerOfTwo (1074 + 2) ≤ den) :
    ofRatio negative num den = .finite negative 0 0 := by
  have hunits : num * powerOfTwo 1074 * 2 < den := by
    have hfour : num * powerOfTwo (1074 + 2) = num * powerOfTwo 1074 * 4 := by
      have htwo : powerOfTwo 2 = 4 := rfl
      rw [powerOfTwo_add, htwo, Nat.mul_assoc]
    omega
  rw [ofRatio, ofUnits_zero hunits]

/-! ## Signs -/

theorem neg_ofUnits (units den : Nat) : (ofUnits false units den).neg = ofUnits true units den := by
  simp only [ofUnits]
  split <;> split <;> rfl

theorem neg_ofRatio (num den : Nat) : (ofRatio false num den).neg = ofRatio true num den := by
  rw [ofRatio, ofRatio, neg_ofUnits]

/-- The number nearest to a negative integer is that of the positive one with a minus sign. -/
theorem neg_ofInt {i : Int} (hi : i < 0) : (ofInt i.natAbs).neg = ofInt i := by
  have habs : ¬ (i.natAbs : Int) < 0 := by omega
  rw [ofInt, ofInt, decide_eq_false habs, decide_eq_true hi, Int.natAbs_natCast, neg_ofRatio]

/-! ## Equality -/

theorem equals_iff {x y : Binary64} :
    x.equals y ↔ ∃ p, x.position? = some p ∧ y.position? = some p := by
  unfold equals compare?
  cases hx : x.position? with
  | none => simp
  | some p =>
    cases hy : y.position? with
    | none => simp
    | some q =>
      have hcompare : ((some (compare p q) : Option Ordering) == some .eq) = true ↔ p = q := by
        rw [beq_iff_eq, Option.some.injEq, compare_eq_iff_eq]
      refine hcompare.trans ⟨fun h => ⟨p, rfl, congrArg some h.symm⟩, ?_⟩
      rintro ⟨r, hp, hq⟩
      exact (Option.some.inj hp).trans (Option.some.inj hq).symm

theorem equals_comm (x y : Binary64) : x.equals y = y.equals x := by
  rw [Bool.eq_iff_iff, equals_iff, equals_iff]
  simp only [and_comm]

theorem equals_self {x : Binary64} (h : x ≠ .nan) : x.equals x := by
  rw [equals_iff]
  cases x with
  | nan => exact absurd rfl h
  | infinite s => exact ⟨_, rfl, rfl⟩
  | finite s m e => exact ⟨_, rfl, rfl⟩

theorem ofUnits_ne_nan (units den : Nat) : ofUnits negative units den ≠ .nan := by
  simp only [ofUnits]
  split <;> split <;> simp

theorem ofInt_ne_nan (i : Int) : ofInt i ≠ .nan := by
  rw [ofInt, ofRatio]
  exact ofUnits_ne_nan _ _

/-! ## Decimal numbers -/

theorem powerOfTen_zero : powerOfTen 0 = 1 := rfl

/-- A decimal number is rounded as the fraction that it is: beyond the bounds of `ofDecimal` the fraction
is too great or too small for the format. -/
theorem ofDecimal_eq_ofRatio (hd : d ≠ 0) (k : Int) :
    ofDecimal negative d k =
      ofRatio negative (d * powerOfTen k.toNat) (powerOfTen (-k).toNat) := by
  have hpos : 0 < powerOfTen (-k).toNat := powerOfTen_pos _
  unfold ofDecimal
  rw [if_neg hd]
  by_cases hgreat : k > 400
  · rw [if_pos hgreat]
    have hden : (-k).toNat = 0 := by omega
    have hexp : maxExponent + 52 < 3 * k.toNat + 1074 := by
      unfold maxExponent
      omega
    refine (ofRatio_infinite hpos hexp ?_).symm
    calc powerOfTwo (3 * k.toNat) * powerOfTen (-k).toNat = powerOfTwo (3 * k.toNat) := by
          rw [hden, powerOfTen_zero, Nat.mul_one]
      _ ≤ powerOfTen k.toNat := powerOfTwo_le_powerOfTen _
      _ ≤ d * powerOfTen k.toNat := Nat.le_mul_of_pos_left _ (Nat.pos_of_ne_zero hd)
  · rw [if_neg hgreat]
    by_cases hsmall : k + (d.log2 / 3 : Nat) < -400
    · rw [if_pos hsmall]
      have hnum : k.toNat = 0 := by omega
      have hlog : d ≤ powerOfTwo (d.log2 + 1) := Nat.lt_log2_self.le
      refine (ofRatio_zero hpos ?_).symm
      calc d * powerOfTen k.toNat * powerOfTwo (1074 + 2) = d * powerOfTwo (1074 + 2) := by
            rw [hnum, powerOfTen_zero, Nat.mul_one]
        _ ≤ powerOfTwo (d.log2 + 1) * powerOfTwo (1074 + 2) := Nat.mul_le_mul_right _ hlog
        _ = powerOfTwo (d.log2 + 1 + (1074 + 2)) := (powerOfTwo_add _ _).symm
        _ ≤ powerOfTwo (3 * (-k).toNat) := powerOfTwo_le (by omega)
        _ ≤ powerOfTen (-k).toNat := powerOfTwo_le_powerOfTen _
    · rw [if_neg hsmall]
      by_cases hk : k ≥ 0
      · have hden : (-k).toNat = 0 := by omega
        rw [if_pos hk, hden, powerOfTen_zero]
      · have hnum : k.toNat = 0 := by omega
        rw [if_neg hk, hnum, powerOfTen_zero, Nat.mul_one]

end Pagewright.Binary64
