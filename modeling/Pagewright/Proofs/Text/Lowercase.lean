import Mathlib.Data.List.Chain
import Pagewright.Proofs.Text.Character

/-!
# Lower case of single characters

The lower case of a character is one character, which has itself as its lower case and is a letter if the first one is;
only the dotted capital I has a letter and a dot above it, which is no letter (`lower_cases`). The tables are compared as
sets of code points, which are the bits of numbers: what the runs of capital letters go to (`smalls`) are letters, and
none of them is in a run (`smalls_spec`).
-/

namespace Pagewright.Text

variable {c : Char} {n : ℕ} {lo hi : ℕ} {ranges : List (ℕ × ℕ)} {run run' : ℕ × ℕ × ℕ × ℕ}
  {runs : List (ℕ × ℕ × ℕ × ℕ)}

/-! ## Ranges -/

theorem inRanges_of_mem (hsorted : ranges.Pairwise fun r s => r.1 ≤ s.1) (hmem : (lo, hi) ∈ ranges) (hlo : lo ≤ n)
    (hhi : n ≤ hi) : inRanges n ranges := by
  induction ranges with
  | nil => cases hmem
  | cons r ranges ih =>
    obtain ⟨hle, hsorted⟩ := List.pairwise_cons.1 hsorted
    rw [inRanges]
    rcases List.mem_cons.1 hmem with rfl | hmem
    · rw [if_neg (by omega)]
      simp [hhi]
    · have hbegin : r.1 ≤ lo := hle _ hmem
      rw [if_neg (by omega), ih hsorted hmem, Bool.or_true]

private theorem alphabeticRanges_pairwise : alphabeticRanges.Pairwise fun r s => r.1 ≤ s.1 := by
  have htrans : IsTrans (ℕ × ℕ) fun r s => r.1 ≤ s.1 := ⟨fun _ _ _ => Nat.le_trans⟩
  have hchain : alphabeticRanges.IsChain fun r s => r.1 ≤ s.1 := by decide +kernel
  exact hchain.pairwise

/-! ## Runs of capital letters -/

/-- Is a code point one of a run? -/
def InRun (n : ℕ) (run : ℕ × ℕ × ℕ × ℕ) : Prop := run.1 ≤ n ∧ n ≤ run.2.1 ∧ (n - run.1) % run.2.2.1 = 0

/-- The lower case of the last code point of a run, if that is one of it. -/
def lastTarget (run : ℕ × ℕ × ℕ × ℕ) : ℕ := run.2.2.2 + (run.2.1 - run.1)

theorem lowerCode_of_not_inRun (h : ∀ run ∈ runs, ¬ InRun n run) : lowerCode n runs = n := by
  induction runs with
  | nil => rfl
  | cons run runs ih =>
    obtain ⟨hrun, hruns⟩ := List.forall_mem_cons.1 h
    obtain ⟨lo, hi, step, target⟩ := run
    rw [lowerCode]
    split
    · rfl
    · next hlo =>
      rw [if_neg, ih hruns]
      intro hin
      simp only [Bool.and_eq_true, decide_eq_true_eq, beq_iff_eq] at hin
      exact hrun ⟨not_lt.1 hlo, hin⟩

theorem lowerCode_cases (n : ℕ) (runs : List (ℕ × ℕ × ℕ × ℕ)) :
    lowerCode n runs = n ∨ ∃ run ∈ runs, InRun n run ∧ lowerCode n runs = run.2.2.2 + (n - run.1) := by
  induction runs with
  | nil => exact Or.inl rfl
  | cons run runs ih =>
    obtain ⟨lo, hi, step, target⟩ := run
    rw [lowerCode]
    split
    · exact Or.inl rfl
    · next hlo =>
      split
      · next hin =>
        simp only [Bool.and_eq_true, decide_eq_true_eq, beq_iff_eq] at hin
        exact Or.inr ⟨_, List.mem_cons_self, ⟨not_lt.1 hlo, hin⟩, rfl⟩
      · rcases ih with h | ⟨run, hrun, h⟩
        · exact Or.inl h
        · exact Or.inr ⟨run, List.mem_cons_of_mem _ hrun, h⟩

/-! ### The tables as sets of bits -/

/-- So many multiples of a step. -/
private def multiples (step : ℕ) : ℕ → ℕ
  | 0 => 0
  | k + 1 => 1 ||| multiples step k <<< step

private theorem testBit_multiples {step k q : ℕ} (h : q < k) : (multiples step k).testBit (step * q) := by
  induction k generalizing q with
  | zero => cases h
  | succ k ih =>
    rw [multiples, Nat.testBit_or]
    cases q with
    | zero =>
      have hfirst : Nat.testBit 1 0 := rfl
      rw [Nat.mul_zero, hfirst, Bool.true_or]
    | succ q =>
      have hshift : (multiples step k <<< step).testBit (step * (q + 1)) := by
        rw [Nat.testBit_shiftLeft, Nat.mul_succ, Nat.add_sub_cancel, ih (Nat.lt_of_succ_lt_succ h)]
        simp
      rw [hshift, Bool.or_true]

/-- The places of a run, counted from its first code point. -/
private def places (run : ℕ × ℕ × ℕ × ℕ) : ℕ := multiples run.2.2.1 ((run.2.1 - run.1) / run.2.2.1 + 1)

private theorem testBit_places (h : InRun n run) : (places run).testBit (n - run.1) := by
  obtain ⟨hlo, hhi, hstep⟩ := h
  have hdvd : run.2.2.1 * ((n - run.1) / run.2.2.1) = n - run.1 := Nat.mul_div_cancel' (Nat.dvd_of_mod_eq_zero hstep)
  rw [← hdvd]
  exact testBit_multiples (Nat.lt_succ_of_le (Nat.div_le_div_right (Nat.sub_le_sub_right hhi _)))

/-- The code points that have a lower case. -/
private def capitals : ℕ := union (fun run => places run <<< run.1) lowercaseRuns

/-- Their lower case. -/
private def smalls : ℕ := union (fun run => places run <<< run.2.2.2) lowercaseRuns

private theorem testBit_capitals (hrun : run ∈ lowercaseRuns) (hin : InRun n run) : capitals.testBit n := by
  refine testBit_union.2 ⟨run, hrun, ?_⟩
  rw [Nat.testBit_shiftLeft, testBit_places hin]
  simpa using hin.1

private theorem testBit_smalls (hrun : run ∈ lowercaseRuns) (hin : InRun n run) :
    smalls.testBit (run.2.2.2 + (n - run.1)) := by
  refine testBit_union.2 ⟨run, hrun, ?_⟩
  rw [Nat.testBit_shiftLeft, Nat.add_sub_cancel_left, testBit_places hin]
  simp

/-! ### Where the lower case is -/

private theorem smalls_spec : smalls &&& rangeBits alphabeticRanges = smalls ∧ smalls &&& capitals = 0 ∧ smalls.testBit 0x130 = false := by
  decide +kernel

/-- The lower case of a code point is a letter, has no lower case of its own and is not the dotted capital I. -/
private theorem of_testBit_smalls (h : smalls.testBit n) :
    (rangeBits alphabeticRanges).testBit n ∧ capitals.testBit n = false ∧ n ≠ 0x130 := by
  obtain ⟨hletters, hcapitals, hdotted⟩ := smalls_spec
  have hletter := congrArg (·.testBit n) hletters
  have hcapital := congrArg (·.testBit n) hcapitals
  simp only [Nat.testBit_and, h, Bool.true_and, Nat.zero_testBit] at hletter hcapital
  refine ⟨hletter, hcapital, ?_⟩
  rintro rfl
  rw [hdotted] at h
  cases h

private theorem isValidChar_targets : ∀ run ∈ lowercaseRuns,
    lastTarget run < 0xD800 ∨ 0xDFFF < run.2.2.2 ∧ lastTarget run < 0x110000 := by
  decide +kernel

/-! ## The lower case of a character -/

/-- The only character with two characters as its lower case. -/
def dottedI : Char := '\u0130'

theorem lower_dottedI : lower dottedI = ['i', '\u0307'] := by decide

theorem lower_ne_nil (c : Char) : lower c ≠ [] := by
  unfold lower
  split <;> exact List.cons_ne_nil _ _

theorem isAlphanumeric_dottedI : isAlphanumeric dottedI := by decide

/-- The dot above that comes with the small letter is no letter. -/
theorem isAlphanumeric_dot : isAlphanumeric '\u0307' = false := by decide

/-- The lower case of a character is its own lower case, and a letter or a number if the character is one. -/
theorem lower_cases (hc : c ≠ dottedI) :
    ∃ d, lower c = [d] ∧ d ≠ dottedI ∧ lower d = [d] ∧ (isAlphanumeric c → isAlphanumeric d) := by
  have hne : ∀ d : Char, d ≠ dottedI → d.toNat ≠ 0x130 := fun d hd heq => hd (Char.toNat_inj.1 heq)
  have hlower : ∀ d : Char, d ≠ dottedI → lower d = [Char.ofNat (lowerCode d.toNat lowercaseRuns)] :=
    fun d hd => if_neg (hne d hd)
  rcases lowerCode_cases c.toNat lowercaseRuns with hsame | ⟨run, hrun, hin, htarget⟩
  · have hself : lower c = [c] := by rw [hlower c hc, hsame, Char.ofNat_toNat]
    exact ⟨c, hself, hc, hself, id⟩
  · have hlast : run.2.2.2 + (c.toNat - run.1) ≤ lastTarget run := Nat.add_le_add_left (Nat.sub_le_sub_right hin.2.1 _) _
    have hvalid : (run.2.2.2 + (c.toNat - run.1)).isValidChar := by
      rcases isValidChar_targets run hrun with h | h
      · exact Or.inl (by omega)
      · exact Or.inr (by omega)
    have hcode := toNat_ofNat_of_isValidChar hvalid
    obtain ⟨hletter, hcapital, hnot⟩ := of_testBit_smalls (testBit_smalls hrun hin)
    have hdotted : Char.ofNat (run.2.2.2 + (c.toNat - run.1)) ≠ dottedI := by
      intro heq
      rw [heq] at hcode
      exact hnot hcode.symm
    have hsmall : ∀ run' ∈ lowercaseRuns, ¬ InRun (run.2.2.2 + (c.toNat - run.1)) run' := by
      intro run' hrun' hin'
      rw [testBit_capitals hrun' hin'] at hcapital
      cases hcapital
    refine ⟨Char.ofNat (run.2.2.2 + (c.toNat - run.1)), ?_, hdotted, ?_, fun _ => ?_⟩
    · rw [hlower c hc, htarget]
    · rw [hlower _ hdotted, hcode, lowerCode_of_not_inRun hsmall]
    · obtain ⟨⟨lo, hi⟩, hrange, hlo, hhi⟩ := testBit_rangeBits.1 hletter
      have halpha := inRanges_of_mem alphabeticRanges_pairwise hrange hlo hhi
      rw [isAlphanumeric, isAlphabetic, hcode, halpha, Bool.true_or]

end Pagewright.Text
