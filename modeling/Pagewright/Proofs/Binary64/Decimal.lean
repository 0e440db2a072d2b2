import Pagewright.Binary64.Decimal
import Pagewright.Proofs.Binary64.Rounding

/-!
# Numbers read back from their texts

The text of a finite number is read as that number. The facts on the way live here:

* the digits that the search finds are read as the number, whichever grid they are on
  (`searchGrids_spec`, `shortest_spec`); nothing has to be known about how many digits are enough, since the
  last resort is exact;
* such digits do not begin too far from the point (`natAbs_leading_le`), so that no exponent that is written is
  cut off when it is read;
* a `Literal` is a decimal text by its parts, and is read as its value (`Literal.parse?_text`); the texts of
  numbers are literals (`Literal.exists_scientificText`).
-/

namespace Pagewright.Binary64

variable {negative : Bool} {m e d fuel : Nat} {k : Int} {ds : Text}

theorem powerOfTen_eq_mul (n : Nat) : powerOfTen n = powerOfTwo n * powerOfFive n := Nat.mul_pow 2 5 n

/-! ## The shortest digits -/

/-- Zeros at the end of the digits can be taken into the exponent. -/
theorem ofDecimal_mul_powerOfTen (hd : d ≠ 0) (j : Nat) (k : Int) :
    ofDecimal negative (d * powerOfTen j) k = ofDecimal negative d (k + j) := by
  have hpos : d * powerOfTen j ≠ 0 := Nat.mul_ne_zero hd (powerOfTen_pos j).ne'
  rw [ofDecimal_eq_ofRatio hd, ofDecimal_eq_ofRatio hpos]
  refine ofRatio_congr (powerOfTen_pos _) (powerOfTen_pos _) ?_
  have hexp : j + k.toNat + (-(k + j)).toNat = (k + j).toNat + (-k).toNat := by omega
  have hpow := congrArg powerOfTen hexp
  simp only [powerOfTen_add] at hpow
  calc d * powerOfTen j * powerOfTen k.toNat * powerOfTen (-(k + j)).toNat
      = d * (powerOfTen j * powerOfTen k.toNat * powerOfTen (-(k + j)).toNat) := by ring
    _ = d * (powerOfTen (k + j).toNat * powerOfTen (-k).toNat) := by rw [hpow]
    _ = d * powerOfTen (k + j).toNat * powerOfTen (-k).toNat := by ring

theorem dropZeros_spec (hd : d ≠ 0) (k : Int) :
    (dropZeros fuel d k).1 ≠ 0 ∧
      ofDecimal negative (dropZeros fuel d k).1 (dropZeros fuel d k).2 = ofDecimal negative d k := by
  induction fuel generalizing d k with
  | zero => exact ⟨hd, rfl⟩
  | succ fuel ih =>
    rw [dropZeros]
    split
    · next hzero =>
      have hten : d / 10 * powerOfTen 1 = d := Nat.div_mul_cancel (Nat.dvd_of_mod_eq_zero hzero)
      have hpos : d / 10 ≠ 0 := by omega
      have hshift : ofDecimal negative (d / 10 * powerOfTen 1) k = ofDecimal negative (d / 10) (k + 1) :=
        ofDecimal_mul_powerOfTen hpos 1 k
      rw [hten] at hshift
      obtain ⟨hne, hval⟩ := ih hpos (k + 1)
      exact ⟨hne, hval.trans hshift.symm⟩
    · exact ⟨hd, rfl⟩

private theorem of_firstOf {p : Nat → Bool} {a b : Nat}
    (h : (if p a then some a else if p b then some b else none) = some d) : p d := by
  split at h
  · next ha =>
    cases h
    exact ha
  · split at h
    · next hb =>
      cases h
      exact hb
    · cases h

/-- A neighbour on a grid is taken only if it reads back. -/
theorem ofDecimal_of_onGrid? (h : onGrid? m e k = some d) : ofDecimal false d k = .finite false m e := by
  unfold onGrid? at h
  exact of_decide_eq_true (of_firstOf (p := fun d => ofDecimal false d k == .finite false m e) h)

private theorem powerOfFive_ne_zero (n : Nat) : powerOfFive n ≠ 0 := (Nat.pow_pos (by omega)).ne'

private theorem ofDecimal_places (hm : m ≠ 0) (n : Nat) :
    m * powerOfFive n ≠ 0 ∧ ofDecimal false (m * powerOfFive n) (-n) = ofRatio false m (powerOfTwo n) := by
  have hpos : m * powerOfFive n ≠ 0 := Nat.mul_ne_zero hm (powerOfFive_ne_zero n)
  refine ⟨hpos, ?_⟩
  rw [ofDecimal_eq_ofRatio hpos]
  refine ofRatio_congr (powerOfTen_pos _) (powerOfTwo_pos n) ?_
  have hnum : (-(n : Int)).toNat = 0 := by omega
  have hden : (-(-(n : Int))).toNat = n := by omega
  rw [hnum, hden, powerOfTen_zero, powerOfTen_eq_mul]
  ring

/-- The exact digits read back. -/
theorem expansion_spec (hm : m ≠ 0) (h : Canonical m e) :
    (expansion m e).1 ≠ 0 ∧
      ofDecimal false (expansion m e).1 (expansion m e).2 = .finite false m e := by
  have hpos : m * powerOfTwo e ≠ 0 := Nat.mul_ne_zero hm (powerOfTwo_pos e).ne'
  obtain ⟨hne, hval⟩ := ofDecimal_places hpos 1074
  exact ⟨hne, hval.trans (ofRatio_exact h)⟩

section Search

-- the numbers on a grid must not be computed when the search is opened
attribute [local irreducible] onGrid?

theorem searchGrids_succ (n : Nat) (k : Int) :
    searchGrids m e k (n + 1) =
      match onGrid? m e k with
      | some d => (d, k)
      | none => searchGrids m e (k - 1) n := rfl

/-- What the search finds reads back, also when it falls back on the exact digits. -/
theorem searchGrids_spec (hm : m ≠ 0) (h : Canonical m e) (n : Nat) (k : Int) :
    (searchGrids m e k n).1 ≠ 0 ∧
      ofDecimal false (searchGrids m e k n).1 (searchGrids m e k n).2 = .finite false m e := by
  induction n generalizing k with
  | zero => exact expansion_spec hm h
  | succ n ih =>
    rw [searchGrids_succ]
    split
    · next d hd =>
      have hval := ofDecimal_of_onGrid? hd
      refine ⟨?_, hval⟩
      rintro rfl
      cases hval
      exact hm rfl
    · exact ih (k - 1)

end Search

/-- The shortest digits read back. -/
theorem shortest_spec (hm : m ≠ 0) (h : Canonical m e) :
    (shortest m e).1 ≠ 0 ∧ ofDecimal false (shortest m e).1 (shortest m e).2 = .finite false m e := by
  obtain ⟨hne, hval⟩ := searchGrids_spec hm h 17 (leadingExponent (m * powerOfTwo e) (powerOfTwo 1074))
  obtain ⟨hne', hval'⟩ := dropZeros_spec hne _
  exact ⟨hne', hval'.trans hval⟩

/-! ## Digits -/

theorem isDigit_of_mem_ofNat {n : Nat} {c : Char} (h : c ∈ Text.ofNat n) : Text.isDigit c := by
  have hdigit : c.isDigit = true := Nat.isDigit_of_mem_toDigits (by omega) (by omega) h
  simpa [Text.isDigit, Char.isDigit, UInt32.le_iff_toNat_le] using hdigit

theorem digitsValue_eq_ofDigitChars (ds : Text) : digitsValue ds = Nat.ofDigitChars 10 ds 0 := by
  simp only [digitsValue, Nat.ofDigitChars, Nat.mul_comm]
  rfl

@[simp] theorem digitsValue_ofNat (n : Nat) : digitsValue (Text.ofNat n) = n := by
  rw [digitsValue_eq_ofDigitChars]
  exact Nat.ofDigitChars_toDigits (by omega) (by omega)

/-- Zeros in front do not count. -/
theorem digitsValue_zeros_append (n : Nat) (ds : Text) :
    digitsValue (List.replicate n '0' ++ ds) = digitsValue ds := by
  have hzeros : (List.replicate n '0').foldl (fun n c => n * 10 + (c.toNat - 48)) 0 = 0 := by
    induction n with
    | zero => rfl
    | succ n ih => exact ih
  rw [digitsValue, List.foldl_append, hzeros, digitsValue]

/-- Zeros behind multiply by ten. -/
theorem digitsValue_append_zeros (n : Nat) (ds : Text) :
    digitsValue (ds ++ List.replicate n '0') = digitsValue ds * powerOfTen n := by
  induction n with
  | zero => rw [List.replicate_zero, List.append_nil, powerOfTen_zero, Nat.mul_one]
  | succ n ih =>
    have hlast : digitsValue (ds ++ List.replicate n '0' ++ ['0']) =
        digitsValue (ds ++ List.replicate n '0') * 10 := by
      rw [digitsValue, List.foldl_append, digitsValue]
      rfl
    have hten : powerOfTen (n + 1) = powerOfTen n * 10 := powerOfTen_add n 1
    rw [List.replicate_succ', ← List.append_assoc, hlast, ih, hten, Nat.mul_assoc]

theorem lt_powerOfTen_length (n : Nat) : n < powerOfTen (Text.ofNat n).length :=
  (Nat.length_toDigits_le_iff (by omega) Nat.length_toDigits_pos).1 le_rfl

theorem powerOfTen_le_of_length {n j : Nat} (hn : n ≠ 0) (h : (Text.ofNat n).length = j + 1) :
    powerOfTen j ≤ n := by
  rcases Nat.eq_zero_or_pos j with rfl | hj
  · exact Nat.pos_of_ne_zero hn
  · by_contra hlt
    have hlen : (Text.ofNat n).length ≤ j :=
      (Nat.length_toDigits_le_iff (by omega) hj).2 (Nat.lt_of_not_le hlt)
    omega

/-! ## The size of a number -/

private theorem lt_of_powerOfTen_lt {i j : Nat} (h : powerOfTen i < powerOfTen j) : i < j :=
  (Nat.pow_lt_pow_iff_right (by omega)).1 h

private theorem powerOfTwo_le_powerOfTen_self (n : Nat) : powerOfTwo n ≤ powerOfTen n :=
  (powerOfTwo_le (by omega)).trans (powerOfTwo_le_powerOfTen n)

/-- The digits of a number that is read as a finite one other than zero do not begin too far from the
point. -/
theorem leading_bounds {i j : Nat} (hi : maxExponent + 52 < i + 1074) (hj : j = 1074 + 2) (hd : d ≠ 0)
    (hm : m ≠ 0) (h : ofDecimal false d k = .finite false m e) :
    (k + (Text.ofNat d).length - 1).natAbs < i + j + 1 := by
  rw [ofDecimal_eq_ofRatio hd] at h
  have hden : 0 < powerOfTen (-k).toNat := powerOfTen_pos _
  obtain ⟨l, hl⟩ : ∃ l, (Text.ofNat d).length = l + 1 :=
    Nat.exists_eq_succ_of_ne_zero Nat.length_toDigits_pos.ne'
  have hgreat : d * powerOfTen k.toNat < powerOfTwo i * powerOfTen (-k).toNat := by
    by_contra hle
    rw [ofRatio_infinite hden hi (Nat.le_of_not_lt hle)] at h
    cases h
  have hsmall : powerOfTen (-k).toNat < d * powerOfTen k.toNat * powerOfTwo j := by
    by_contra hle
    rw [hj] at hle
    rw [ofRatio_zero hden (Nat.le_of_not_lt hle)] at h
    cases h
    exact hm rfl
  have hupper : l + k.toNat < i + (-k).toNat := by
    refine lt_of_powerOfTen_lt ?_
    calc powerOfTen (l + k.toNat) = powerOfTen l * powerOfTen k.toNat := powerOfTen_add _ _
      _ ≤ d * powerOfTen k.toNat := Nat.mul_le_mul_right _ (powerOfTen_le_of_length hd hl)
      _ < powerOfTwo i * powerOfTen (-k).toNat := hgreat
      _ ≤ powerOfTen i * powerOfTen (-k).toNat := Nat.mul_le_mul_right _ (powerOfTwo_le_powerOfTen_self i)
      _ = powerOfTen (i + (-k).toNat) := (powerOfTen_add _ _).symm
  have hlower : (-k).toNat < l + 1 + k.toNat + j := by
    refine lt_of_powerOfTen_lt ?_
    have hlt : d ≤ powerOfTen (l + 1) := hl ▸ (lt_powerOfTen_length d).le
    calc powerOfTen (-k).toNat < d * powerOfTen k.toNat * powerOfTwo j := hsmall
      _ ≤ powerOfTen (l + 1) * powerOfTen k.toNat * powerOfTwo j :=
        Nat.mul_le_mul_right _ (Nat.mul_le_mul_right _ hlt)
      _ ≤ powerOfTen (l + 1) * powerOfTen k.toNat * powerOfTen j :=
        Nat.mul_le_mul_left _ (powerOfTwo_le_powerOfTen_self j)
      _ = powerOfTen (l + 1 + k.toNat + j) := by
        rw [powerOfTen_add (l + 1 + k.toNat), powerOfTen_add (l + 1)]
  omega

theorem natAbs_leading_le (hd : d ≠ 0) (hm : m ≠ 0) (h : ofDecimal false d k = .finite false m e) :
    (k + (Text.ofNat d).length - 1).natAbs ≤ 1000000 := by
  have hi : maxExponent + 52 < 1100 + 1074 := by
    unfold maxExponent
    omega
  have hlt := leading_bounds hi rfl hd hm h
  omega

/-! ## Literals -/

/-- A decimal literal: digits, digits behind a point if there are any, and an exponent if there is one. -/
structure Literal where
  whole : Text
  fraction : Text
  exponent : Option Int
  whole_ne_nil : whole ≠ []
  isDigit_whole : ∀ c ∈ whole, Text.isDigit c
  isDigit_fraction : ∀ c ∈ fraction, Text.isDigit c
  /-- Greater exponents are cut off when they are read. -/
  exponent_le : ∀ e ∈ exponent, e.natAbs ≤ 1000000

namespace Literal

/-- The exponent of a literal as it is written. -/
def exponentText : Option Int → Text
  | none => []
  | some e => 'e' :: (if e < 0 then '-' else '+') :: Text.ofNat e.natAbs

/-- The fraction of a literal as it is written. -/
def fractionText (ds : Text) : Text := if ds = [] then [] else '.' :: ds

/-- A literal as it is written. -/
def text (l : Literal) : Text := l.whole ++ (fractionText l.fraction ++ exponentText l.exponent)

/-- The number that a literal is read as. -/
def value (l : Literal) : Binary64 :=
  ofDecimal false (digitsValue (l.whole ++ l.fraction)) (l.exponent.getD 0 - l.fraction.length)

private theorem isDigit_point : Text.isDigit '.' = false := rfl

private theorem isDigit_e : Text.isDigit 'e' = false := rfl

theorem exponentPart?_exponentText {x : Option Int} (hx : ∀ e ∈ x, e.natAbs ≤ 1000000) :
    exponentPart? (exponentText x) = some (x.getD 0) := by
  cases x with
  | none => rfl
  | some e =>
    have hle := hx e rfl
    have hne : (Text.ofNat e.natAbs).isEmpty = false := List.isEmpty_eq_false_iff.2 Nat.toDigits_ne_nil
    have hall : (Text.ofNat e.natAbs).all Text.isDigit = true :=
      List.all_eq_true.2 fun c hc => isDigit_of_mem_ofNat hc
    have hmin : min e.natAbs 1000000 = e.natAbs := Nat.min_eq_left hle
    by_cases hneg : e < 0
    · have hvalue : exponentValue true (Text.ofNat e.natAbs) = e := by
        rw [exponentValue, digitsValue_ofNat, hmin]
        exact (if_pos rfl).trans (by omega)
      simp [exponentText, exponentPart?, sign, hneg, hne, hall, hvalue]
    · have hvalue : exponentValue false (Text.ofNat e.natAbs) = e := by
        rw [exponentValue, digitsValue_ofNat, hmin]
        exact (if_neg (by decide)).trans (by omega)
      simp [exponentText, exponentPart?, sign, hneg, hne, hall, hvalue]

/-- A row of digits ends where the next character is none. -/
theorem span_digits {ds r : Text} (hds : ∀ c ∈ ds, Text.isDigit c)
    (hr : ∀ c ∈ r.head?, Text.isDigit c = false) :
    (ds ++ r).takeWhile Text.isDigit = ds ∧ (ds ++ r).dropWhile Text.isDigit = r := by
  rw [List.takeWhile_append_of_pos hds, List.dropWhile_append_of_pos hds]
  cases r with
  | nil => exact ⟨List.append_nil ds, rfl⟩
  | cons c r =>
    have hc := hr c rfl
    rw [List.takeWhile_cons, List.dropWhile_cons, hc]
    exact ⟨List.append_nil ds, rfl⟩

theorem head?_exponentText (x : Option Int) :
    ∀ c ∈ (exponentText x).head?, Text.isDigit c = false := by
  cases x with
  | none => simp [exponentText]
  | some e =>
    rintro c ⟨⟩
    exact isDigit_e

theorem head?_fractionText (ds : Text) (x : Option Int) :
    ∀ c ∈ (fractionText ds ++ exponentText x).head?, Text.isDigit c = false := by
  unfold fractionText
  split
  · exact head?_exponentText x
  · rintro c ⟨⟩
    exact isDigit_point

theorem sign_digit {c : Char} {r : Text} (hc : Text.isDigit c) : sign (c :: r) = (false, c :: r) := by
  have hminus : c ≠ '-' := by
    rintro rfl
    cases hc
  have hplus : c ≠ '+' := by
    rintro rfl
    cases hc
  simp [sign, hminus, hplus]

/-- A literal is read as its value. -/
theorem parse?_text (l : Literal) : parse? l.text = some l.value := by
  obtain ⟨c, ds, hwhole⟩ := List.exists_cons_of_ne_nil l.whole_ne_nil
  have hsign : sign l.text = (false, l.text) := by
    rw [text, hwhole, List.cons_append]
    exact sign_digit (l.isDigit_whole c (by rw [hwhole]; exact List.mem_cons_self))
  obtain ⟨htake, hdrop⟩ := span_digits l.isDigit_whole (head?_fractionText l.fraction l.exponent)
  have hexp := exponentPart?_exponentText l.exponent_le
  have hne : l.whole.isEmpty = false := List.isEmpty_eq_false_iff.2 l.whole_ne_nil
  unfold parse?
  rw [hsign]
  dsimp only
  rw [text, htake, hdrop, hne, Bool.false_and]
  by_cases hf : l.fraction = []
  · have hrest : fractionText l.fraction ++ exponentText l.exponent = exponentText l.exponent := by
      rw [hf]
      rfl
    rw [hrest, value, hf]
    cases hx : l.exponent with
    | none => simp [exponentText, exponentPart?]
    | some e =>
      rw [hx] at hexp
      simp only [exponentText] at hexp ⊢
      simp [hexp]
  · have hrest : fractionText l.fraction ++ exponentText l.exponent =
        '.' :: (l.fraction ++ exponentText l.exponent) := by
      rw [fractionText, if_neg hf]
      rfl
    obtain ⟨htake, hdrop⟩ := span_digits l.isDigit_fraction (head?_exponentText l.exponent)
    rw [hrest, value]
    simp [htake, hdrop, hexp]

/-! ## Numbers as literals -/

/-- The digits of a natural number. -/
def ofNat (n : Nat) : Literal where
  whole := Text.ofNat n
  fraction := []
  exponent := none
  whole_ne_nil := Nat.toDigits_ne_nil
  isDigit_whole := fun _ hc => isDigit_of_mem_ofNat hc
  isDigit_fraction := by simp
  exponent_le := by simp

theorem text_ofNat (n : Nat) : (ofNat n).text = Text.ofNat n :=
  List.append_nil _

theorem value_ofNat (n : Nat) : (ofNat n).value = ofInt n := by
  have hvalue : (ofNat n).value = ofDecimal false (digitsValue (Text.ofNat n ++ [])) 0 := rfl
  have hint : ofInt n = ofRatio false n 1 := by
    have hneg : decide ((n : Int) < 0) = false := decide_eq_false (by omega)
    rw [ofInt, hneg]
    rfl
  rw [hvalue, hint, List.append_nil, digitsValue_ofNat]
  rcases Nat.eq_zero_or_pos n with rfl | hn
  · refine (ofRatio_zero Nat.one_pos ?_).symm
    rw [Nat.zero_mul]
    exact Nat.zero_le 1
  · rw [ofDecimal_eq_ofRatio hn.ne']
    exact congrArg (fun num => ofRatio false num 1) (Nat.mul_one n)

private theorem isDigit_zeros (n : Nat) : ∀ c ∈ List.replicate n '0', Text.isDigit c := fun c hc => by
  rw [List.eq_of_mem_replicate hc]
  rfl

/-- Zero, as it is written with a point. -/
def zero : Literal where
  whole := ['0']
  fraction := ['0']
  exponent := none
  whole_ne_nil := by simp
  isDigit_whole := isDigit_zeros 1
  isDigit_fraction := isDigit_zeros 1
  exponent_le := by simp

theorem value_zero : zero.value = .finite false 0 0 := rfl

/-- The digits of a number behind a point are a literal of the same value. -/
theorem exists_withPoint (d : Nat) {places : Nat} (hp : 0 < places) : ∃ l : Literal,
    l.text = withPoint (Text.ofNat d) places ∧ l.value = ofDecimal false d (-places) := by
  have hdigits : ∀ c ∈ Text.ofNat d, Text.isDigit c := fun c hc => isDigit_of_mem_ofNat hc
  have hexp : (0 : Int) - places = -places := by omega
  unfold withPoint
  by_cases hlen : (Text.ofNat d).length ≤ places
  · -- all digits stand behind the point, and zeros in front of them
    have hne : List.replicate (places - (Text.ofNat d).length) '0' ++ Text.ofNat d ≠ [] := fun h =>
      Nat.toDigits_ne_nil (List.append_eq_nil_iff.1 h).2
    refine ⟨⟨['0'], List.replicate (places - (Text.ofNat d).length) '0' ++ Text.ofNat d, none, by simp,
      isDigit_zeros 1, ?_, by simp⟩, ?_, ?_⟩
    · intro c hc
      rcases List.mem_append.1 hc with hc | hc
      · exact isDigit_zeros _ c hc
      · exact hdigits c hc
    · rw [if_pos hlen, text, fractionText, if_neg hne]
      simp [exponentText]
    · have hvalue : digitsValue (['0'] ++ (List.replicate (places - (Text.ofNat d).length) '0' ++
          Text.ofNat d)) = d := by
        rw [← List.append_assoc, ← List.replicate_one, List.replicate_append_replicate,
          digitsValue_zeros_append, digitsValue_ofNat]
      have hlength : (List.replicate (places - (Text.ofNat d).length) '0' ++ Text.ofNat d).length =
          places := by
        rw [List.length_append, List.length_replicate]
        omega
      simp only [value, hvalue, hlength, Option.getD_none, hexp]
  · -- the point stands between digits
    have hwhole : (Text.ofNat d).take ((Text.ofNat d).length - places) ≠ [] := by
      rw [← List.length_pos_iff, List.length_take]
      omega
    have hfraction : (Text.ofNat d).drop ((Text.ofNat d).length - places) ≠ [] := by
      rw [← List.length_pos_iff, List.length_drop]
      omega
    refine ⟨⟨(Text.ofNat d).take ((Text.ofNat d).length - places),
      (Text.ofNat d).drop ((Text.ofNat d).length - places), none, hwhole,
      fun c hc => hdigits c (List.mem_of_mem_take hc), fun c hc => hdigits c (List.mem_of_mem_drop hc),
      by simp⟩, ?_, ?_⟩
    · rw [if_neg hlen, text, fractionText, if_neg hfraction]
      simp [exponentText]
    · have hlength : ((Text.ofNat d).drop ((Text.ofNat d).length - places)).length = places := by
        rw [List.length_drop]
        omega
      simp only [value, List.take_append_drop, digitsValue_ofNat, hlength, Option.getD_none, hexp]

/-- A positional text is a literal of the same value. -/
theorem exists_positional (hd : d ≠ 0) (k : Int) : ∃ l : Literal,
    l.text = positional d k ++ (if k ≥ 0 then ".0".toList else []) ∧ l.value = ofDecimal false d k := by
  unfold positional
  by_cases hk : k ≥ 0
  · refine ⟨⟨Text.ofNat d ++ List.replicate k.toNat '0', ['0'], none, ?_, ?_, isDigit_zeros 1, by simp⟩, ?_, ?_⟩
    · exact fun h => Nat.toDigits_ne_nil (List.append_eq_nil_iff.1 h).1
    · intro c hc
      rcases List.mem_append.1 hc with hc | hc
      · exact isDigit_of_mem_ofNat hc
      · exact isDigit_zeros _ c hc
    · rw [if_pos hk, if_pos hk]
      rfl
    · have hvalue : digitsValue (Text.ofNat d ++ List.replicate k.toNat '0' ++ ['0']) =
          d * powerOfTen (k.toNat + 1) := by
        rw [List.append_assoc, ← List.replicate_succ', digitsValue_append_zeros, digitsValue_ofNat]
      have hexp : (-1 : Int) + (k.toNat + 1 : Nat) = k := by omega
      have hshift : ofDecimal false (d * powerOfTen (k.toNat + 1)) (-1) =
          ofDecimal false d (-1 + (k.toNat + 1 : Nat)) := ofDecimal_mul_powerOfTen hd _ _
      rw [hexp] at hshift
      simp only [value, hvalue]
      exact hshift
  · have hp : 0 < (-k).toNat := by omega
    obtain ⟨l, htext, hvalue⟩ := exists_withPoint d hp
    have hexp : -((-k).toNat : Int) = k := by omega
    rw [hexp] at hvalue
    exact ⟨l, by rw [htext, if_neg hk, if_neg hk, List.append_nil], hvalue⟩

/-- A text with an exponent is a literal of the same value. -/
theorem exists_scientific (d : Nat) (k : Int)
    (hle : (k + (Text.ofNat d).length - 1).natAbs ≤ 1000000) : ∃ l : Literal,
    l.text = scientific (Text.ofNat d) (k + (Text.ofNat d).length - 1) ∧ l.value = ofDecimal false d k := by
  have hdigits : ∀ c ∈ Text.ofNat d, Text.isDigit c := fun c hc => isDigit_of_mem_ofNat hc
  have hvalue := digitsValue_ofNat d
  have hnil : Text.ofNat d ≠ [] := Nat.toDigits_ne_nil
  generalize Text.ofNat d = ds at *
  obtain ⟨c, ds, rfl⟩ := List.exists_cons_of_ne_nil hnil
  obtain ⟨hc, hds⟩ := List.forall_mem_cons.1 hdigits
  refine ⟨⟨[c], ds, some (k + (c :: ds).length - 1), by simp, by simpa using hc, hds, by simpa using hle⟩,
    ?_, ?_⟩
  · unfold scientific text fractionText exponentText
    cases ds with
    | nil => rfl
    | cons b r => simp
  · have hexp : k + (c :: ds).length - 1 - ds.length = k := by
      rw [List.length_cons]
      omega
    simp only [value, List.singleton_append, hvalue, Option.getD_some, hexp]

/-- The text of a number is a literal that is read as the number. -/
theorem exists_scientificText (h : Canonical m e) : ∃ l : Literal,
    l.text = (finite false m e).scientificText ∧ l.value = .finite false m e := by
  by_cases hm : m = 0
  · have he : e = 0 := by
      subst hm
      exact h.2.1.resolve_right (powerOfTwo_pos 52).not_ge
    subst hm he
    exact ⟨zero, rfl, value_zero⟩
  · obtain ⟨hne, hval⟩ := shortest_spec hm h
    have hbound := natAbs_leading_le hne hm hval
    unfold scientificText
    dsimp only
    rw [if_neg hm]
    generalize shortest m e = found at hne hval hbound
    obtain ⟨d, k⟩ := found
    dsimp only at hne hval hbound ⊢
    split
    · obtain ⟨l, htext, hvalue⟩ := exists_positional hne k
      exact ⟨l, htext, hvalue.trans hval⟩
    · obtain ⟨l, htext, hvalue⟩ := exists_scientific d k hbound
      exact ⟨l, htext, hvalue.trans hval⟩

end Literal

end Pagewright.Binary64
