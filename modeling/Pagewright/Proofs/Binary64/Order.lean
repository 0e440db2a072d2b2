import Pagewright.Proofs.Binary64.Rounding

/-!
# Rounding keeps the order

A greater quotient is never rounded to a smaller number. Three things live here:

* the value of a rounded quotient in units, before the format ends (`roundedUnits`), which grows with the quotient
  (`roundedUnits_mono`): where the exponents differ, a power of two lies between the two;
* where a rounded quotient and the number nearest to an integer lie on the line (`position?_ofUnits`,
  `position?_ofInt`), so rounding integers keeps their order (`nearest_mono`);
* integers of no more than 53 bits are not rounded at all (`nearest_exact`).
-/

namespace Pagewright.Binary64

variable {negative : Bool} {num num' den units units' q n m e : Nat} {i j : Int}

theorem powerOfTwo_lt (h : m < e) : powerOfTwo m < powerOfTwo e := Nat.pow_lt_pow_right (by omega) h

theorem powerOfTwo_dvd (h : m ≤ e) : powerOfTwo m ∣ powerOfTwo e := Nat.pow_dvd_pow 2 h

/-! ## Quotients -/

theorem roundedQuotient_mono (h : num ≤ num') : roundedQuotient num den ≤ roundedQuotient num' den := by
  have hquot : num / den ≤ num' / den := Nat.div_le_div_right h
  have hnum : den * (num / den) + num % den = num := Nat.div_add_mod num den
  have hnum' : den * (num' / den) + num' % den = num' := Nat.div_add_mod num' den
  simp only [roundedQuotient, Bool.or_eq_true, Bool.and_eq_true, beq_iff_eq, decide_eq_true_eq]
  rcases hquot.lt_or_eq with hlt | heq
  · split <;> split <;> omega
  · -- the same whole part: the greater rest is rounded up where the smaller one is
    have hrest : num % den ≤ num' % den := by
      rw [heq] at hnum
      omega
    rw [heq]
    split <;> split <;> omega

theorem roundedQuotient_le (hden : 0 < den) (h : num ≤ q * den) : roundedQuotient num den ≤ q := by
  have hmono : roundedQuotient num den ≤ roundedQuotient (q * den) den := roundedQuotient_mono h
  rwa [roundedQuotient_exact hden] at hmono

theorem le_roundedQuotient (hden : 0 < den) (h : q * den ≤ num) : q ≤ roundedQuotient num den := by
  have hmono : roundedQuotient (q * den) den ≤ roundedQuotient num den := roundedQuotient_mono h
  rwa [roundedQuotient_exact hden] at hmono

/-! ## Values in units -/

/-- The exponent of a quotient in units that keeps 53 bits. -/
def unitsExponent (units den : Nat) : Nat := (units / den).log2 - 52

/-- A quotient in units rounded to 53 bits. -/
def roundedUnits (units den : Nat) : Nat :=
  roundedQuotient units (den * powerOfTwo (unitsExponent units den)) * powerOfTwo (unitsExponent units den)

theorem significand_le (hden : 0 < den) :
    roundedQuotient units (den * powerOfTwo (unitsExponent units den)) ≤ powerOfTwo 53 := by
  refine roundedQuotient_le (Nat.mul_pos hden (powerOfTwo_pos _)) ?_
  have hquot : units / den + 1 ≤ powerOfTwo (53 + unitsExponent units den) := by
    have hlog : units / den < powerOfTwo ((units / den).log2 + 1) := Nat.lt_log2_self
    have hexp : (units / den).log2 + 1 ≤ 53 + unitsExponent units den := by
      unfold unitsExponent
      omega
    exact hlog.trans_le (powerOfTwo_le hexp)
  calc units ≤ den * (units / den + 1) := (Nat.lt_mul_div_succ units hden).le
    _ ≤ den * powerOfTwo (53 + unitsExponent units den) := Nat.mul_le_mul_left den hquot
    _ = powerOfTwo 53 * (den * powerOfTwo (unitsExponent units den)) := by rw [powerOfTwo_add]; ring

theorem le_significand (hden : 0 < den) (hexp : unitsExponent units den ≠ 0) :
    powerOfTwo 52 ≤ roundedQuotient units (den * powerOfTwo (unitsExponent units den)) := by
  refine le_roundedQuotient (Nat.mul_pos hden (powerOfTwo_pos _)) ?_
  have hlog : (units / den).log2 = 52 + unitsExponent units den := by
    unfold unitsExponent at hexp ⊢
    omega
  have hquot : powerOfTwo (52 + unitsExponent units den) ≤ units / den := by
    have hne : units / den ≠ 0 := by
      intro hzero
      rw [hzero, Nat.log2_zero] at hlog
      omega
    rw [← hlog]
    exact Nat.log2_self_le hne
  calc powerOfTwo 52 * (den * powerOfTwo (unitsExponent units den))
      = den * powerOfTwo (52 + unitsExponent units den) := by rw [powerOfTwo_add]; ring
    _ ≤ den * (units / den) := Nat.mul_le_mul_left den hquot
    _ ≤ units := Nat.mul_div_le units den

theorem unitsExponent_mono (h : units ≤ units') : unitsExponent units den ≤ unitsExponent units' den := by
  have hquot : units / den ≤ units' / den := Nat.div_le_div_right h
  unfold unitsExponent
  rcases Nat.eq_zero_or_pos (units / den) with hzero | hpos
  · rw [hzero, Nat.log2_zero]
    omega
  · have hlog : (units / den).log2 ≤ (units' / den).log2 :=
      (Nat.le_log2 (hpos.trans_le hquot).ne').2 ((Nat.log2_self_le hpos.ne').trans hquot)
    omega

/-- A greater quotient is never rounded to a smaller value. -/
theorem roundedUnits_mono (hden : 0 < den) (h : units ≤ units') : roundedUnits units den ≤ roundedUnits units' den := by
  have hexp : unitsExponent units den ≤ unitsExponent units' den := unitsExponent_mono h
  rcases hexp.lt_or_eq with hlt | heq
  · calc roundedUnits units den
        ≤ powerOfTwo 53 * powerOfTwo (unitsExponent units den) := Nat.mul_le_mul_right _ (significand_le hden)
      _ = powerOfTwo (53 + unitsExponent units den) := (powerOfTwo_add _ _).symm
      _ ≤ powerOfTwo (52 + unitsExponent units' den) := powerOfTwo_le (by omega)
      _ = powerOfTwo 52 * powerOfTwo (unitsExponent units' den) := powerOfTwo_add _ _
      _ ≤ roundedUnits units' den := Nat.mul_le_mul_right _ (le_significand hden (by omega))
  · unfold roundedUnits
    rw [heq]
    exact Nat.mul_le_mul_right _ (roundedQuotient_mono h)

/-! ## Places on the line -/

/-- How far a rounded quotient is from zero: where the format ends, as far as infinity. -/
def magnitude (units den : Nat) : Nat :=
  if roundedUnits units den < powerOfTwo 2098 then roundedUnits units den else powerOfTwo 2100

theorem magnitude_mono (hden : 0 < den) (h : units ≤ units') : magnitude units den ≤ magnitude units' den := by
  have hunits := roundedUnits_mono hden h
  have hlast := powerOfTwo_lt (m := 2098) (e := 2100) (by omega)
  unfold magnitude
  split <;> split <;> omega

/-- The number of a sign that is so far from zero. -/
def signed (negative : Bool) (distance : Nat) : Int := if negative then -distance else distance

/-- The greatest exponent of the format is that of the values below `2 ^ 2098` units. -/
theorem value_lt_iff (hm : m < powerOfTwo 53) (he : e ≠ 0 → powerOfTwo 52 ≤ m) :
    m * powerOfTwo e < powerOfTwo 2098 ↔ e ≤ maxExponent := by
  constructor
  · intro hvalue
    by_contra hexp
    have hgreat : powerOfTwo 2098 ≤ m * powerOfTwo e := by
      calc powerOfTwo 2098 ≤ powerOfTwo (52 + e) := powerOfTwo_le (by unfold maxExponent at hexp; omega)
        _ = powerOfTwo 52 * powerOfTwo e := powerOfTwo_add 52 e
        _ ≤ m * powerOfTwo e := Nat.mul_le_mul_right _ (he (by omega))
    exact hgreat.not_gt hvalue
  · intro hexp
    calc m * powerOfTwo e < powerOfTwo 53 * powerOfTwo e := Nat.mul_lt_mul_of_pos_right hm (powerOfTwo_pos e)
      _ = powerOfTwo (53 + e) := (powerOfTwo_add 53 e).symm
      _ ≤ powerOfTwo 2098 := powerOfTwo_le (by unfold maxExponent at hexp; omega)

theorem position?_ofUnits (hden : 0 < den) :
    (ofUnits negative units den).position? = some (signed negative (magnitude units den)) := by
  have hle : roundedQuotient units (den * powerOfTwo (unitsExponent units den)) ≤ powerOfTwo 53 := significand_le hden
  have hge : unitsExponent units den ≠ 0 →
      powerOfTwo 52 ≤ roundedQuotient units (den * powerOfTwo (unitsExponent units den)) := le_significand hden
  unfold magnitude roundedUnits ofUnits
  simp only [← unitsExponent.eq_def]
  generalize roundedQuotient units (den * powerOfTwo (unitsExponent units den)) = s at hle hge
  generalize unitsExponent units den = e at hge
  rcases hle.eq_or_lt with rfl | hlt
  · -- one bit more is the same value with the next exponent
    have hvalue : powerOfTwo 53 * powerOfTwo e = powerOfTwo 52 * powerOfTwo (e + 1) := by
      rw [← powerOfTwo_add, ← powerOfTwo_add]
      exact congrArg powerOfTwo (by omega)
    rw [if_pos rfl, hvalue]
    simp only [value_lt_iff (powerOfTwo_lt (by omega)) fun _ => le_rfl]
    split <;> rfl
  · rw [if_neg hlt.ne]
    simp only [value_lt_iff hlt hge]
    split <;> rfl

/-- Where the number nearest to an integer lies. -/
def nearest (i : Int) : Int := signed (decide (i < 0)) (magnitude (i.natAbs * powerOfTwo 1074) 1)

theorem position?_ofInt (i : Int) : (ofInt i).position? = some (nearest i) := by
  rw [ofInt, ofRatio, position?_ofUnits Nat.one_pos, nearest]

/-- Rounding integers keeps their order. -/
theorem nearest_mono (hij : i ≤ j) : nearest i ≤ nearest j := by
  have hunits : ∀ {a b : Nat}, a ≤ b → magnitude (a * powerOfTwo 1074) 1 ≤ magnitude (b * powerOfTwo 1074) 1 :=
    fun hab => magnitude_mono Nat.one_pos (Nat.mul_le_mul_right _ hab)
  unfold nearest signed
  by_cases hi : i < 0
  · by_cases hj : j < 0
    · have habs := hunits (a := j.natAbs) (b := i.natAbs) (by omega)
      simp only [hi, hj, decide_true, if_true]
      omega
    · simp only [hi, hj, decide_true, decide_false, if_true, Bool.false_eq_true, if_false]
      omega
  · have habs := hunits (a := i.natAbs) (b := j.natAbs) (by omega)
    have hj : ¬ j < 0 := by omega
    simp only [hi, hj, decide_false, Bool.false_eq_true, if_false]
    exact Int.ofNat_le.2 habs

/-! ## Integers that are not rounded -/

theorem roundedUnits_exact (hn : n ≤ powerOfTwo 53) : roundedUnits (n * powerOfTwo 1074) 1 = n * powerOfTwo 1074 := by
  rcases Nat.eq_zero_or_pos n with rfl | hpos
  · have hzero : roundedQuotient 0 (1 * powerOfTwo (unitsExponent 0 1)) = 0 := by
      have hexact := roundedQuotient_exact (Nat.mul_pos Nat.one_pos (powerOfTwo_pos (unitsExponent 0 1))) 0
      rwa [Nat.zero_mul] at hexact
    rw [Nat.zero_mul, roundedUnits, hzero, Nat.zero_mul]
  · have hexp : unitsExponent (n * powerOfTwo 1074) 1 = n.log2 + 1022 := by
      rw [unitsExponent, Nat.div_one, log2_mul_powerOfTwo hpos.ne']
      omega
    have hdvd : powerOfTwo (n.log2 + 1022) ∣ n * powerOfTwo 1074 := by
      rcases hn.eq_or_lt with rfl | hlt
      · have hlog : (powerOfTwo 53).log2 = 53 := Nat.log2_two_pow
        rw [hlog, ← powerOfTwo_add]
        exact powerOfTwo_dvd (by omega)
      · have hlog : n.log2 < 53 := (Nat.log2_lt hpos.ne').2 hlt
        exact (powerOfTwo_dvd (by omega)).trans (Nat.dvd_mul_left _ _)
    obtain ⟨k, hk⟩ := hdvd
    rw [roundedUnits, hexp, hk, Nat.one_mul, Nat.mul_comm _ k, roundedQuotient_exact (powerOfTwo_pos _)]

/-- An integer of no more than 53 bits is the number nearest to itself. -/
theorem nearest_exact (hi : i.natAbs ≤ powerOfTwo 53) : nearest i = i * powerOfTwo 1074 := by
  have hlt : i.natAbs * powerOfTwo 1074 < powerOfTwo 2098 := by
    calc i.natAbs * powerOfTwo 1074 ≤ powerOfTwo 53 * powerOfTwo 1074 := Nat.mul_le_mul_right _ hi
      _ = powerOfTwo (53 + 1074) := (powerOfTwo_add 53 1074).symm
      _ < powerOfTwo 2098 := powerOfTwo_lt (by omega)
  rw [nearest, magnitude, roundedUnits_exact hi, if_pos hlt, signed]
  by_cases hneg : i < 0
  · rw [if_pos (by simpa using hneg), Int.natCast_mul, ← Int.neg_mul, Int.ofNat_natAbs_of_nonpos hneg.le, Int.neg_neg]
  · rw [if_neg (by simpa using hneg), Int.natCast_mul, Int.natAbs_of_nonneg (not_lt.1 hneg)]

theorem nearest_inj (hi : i.natAbs ≤ powerOfTwo 53) (hj : j.natAbs ≤ powerOfTwo 53) (h : nearest i = nearest j) :
    i = j := by
  rw [nearest_exact hi, nearest_exact hj] at h
  have hpos : (powerOfTwo 1074 : Int) ≠ 0 := Int.natCast_ne_zero.2 (powerOfTwo_pos 1074).ne'
  exact Int.eq_of_mul_eq_mul_right hpos h

end Pagewright.Binary64
