import Pagewright.Json.Reader
import Pagewright.Proofs.Json.Strings
import Pagewright.Proofs.Text.Character
import Pagewright.Proofs.Text.Digits

/-!
# What escapes cost

A quote, a backslash or a control character stands in a string only behind a backslash, or as a number with
a backslash in front. So the backslashes of a JSON text bound what its strings can hold, and this bound can be
computed without reading the text: count each backslash (`Json.escapeCost`).

The count has one flaw to mend. A backslash in a string is itself written with two of them, while `\u005c`
has a single one. What a number stands for costs that much only if its last digit is a c, so the letter c
counts too.

`stringsCost_le_of_parse?` is the result: no text costs less than the strings of the value that is read from
it, each one escaped.
-/

namespace Pagewright.Json

/-- The number of characters in a text that pay for escapes. -/
def escapeCost (t : Text) : Nat := t.countP fun c => c = '\\' || c = 'c' || c = 'C'

variable {c : Char} {s t r : Text}

@[simp] theorem escapeCost_nil : escapeCost [] = 0 := rfl

@[simp] theorem escapeCost_append (s t : Text) : escapeCost (s ++ t) = escapeCost s + escapeCost t :=
  List.countP_append

theorem escapeCost_cons (c : Char) (t : Text) :
    escapeCost (c :: t) = escapeCost [c] + escapeCost t := by
  rw [← List.singleton_append, escapeCost_append]

theorem escapeCost_le_of_suffix (h : r <:+ t) : escapeCost r ≤ escapeCost t :=
  h.sublist.countP_le

/-- The characters that stand for themselves in a string. -/
def isPlain (c : Char) : Bool := c ≠ '"' && c ≠ '\\' && 32 ≤ c.toNat

theorem escapeChar_of_isPlain (h : isPlain c) : escapeChar c = [c] := by
  simp only [isPlain, Bool.and_eq_true, decide_eq_true_eq] at h
  obtain ⟨⟨h1, h2⟩, h3⟩ := h
  have hn : ∀ d : Char, d.toNat < 32 → c ≠ d := fun d hd hc => by rw [hc] at h3; omega
  unfold escapeChar
  rw [if_neg h1, if_neg h2, if_neg (hn _ (by decide)), if_neg (hn _ (by decide)), if_neg (hn _ (by decide)),
    if_neg (by omega), if_neg (by omega), if_neg (by omega)]

/-- A quote, a backslash or a control character. -/
theorem not_isPlain_cases (h : ¬ isPlain c) : c = '"' ∨ c = '\\' ∨ ∃ n < 32, c = Char.ofNat n := by
  by_cases h1 : c = '"'
  · exact Or.inl h1
  by_cases h2 : c = '\\'
  · exact Or.inr (Or.inl h2)
  refine Or.inr (Or.inr ⟨c.toNat, ?_, (Char.ofNat_toNat c).symm⟩)
  simpa [isPlain, h1, h2] using h

private theorem escapeCost_control : ∀ n < 32,
    escapeCost [Char.ofNat n] < escapeCost (escapeChar (Char.ofNat n)) ∧
      escapeCost (escapeChar (Char.ofNat n)) ≤ 1 + if (Char.ofNat n).toNat % 16 = 12 then 1 else 0 := by
  decide

/-- Escapes cost more than what they stand for. -/
theorem escapeCost_lt_of_not_isPlain (h : ¬ isPlain c) : escapeCost [c] < escapeCost (escapeChar c) := by
  rcases not_isPlain_cases h with rfl | rfl | ⟨n, hn, rfl⟩
  · decide
  · decide
  · exact (escapeCost_control n hn).1

/-- A character that is escaped costs one, or two if its code ends with the digit c, as that of the
backslash. -/
theorem escapeCost_escapeChar_le (c : Char) :
    escapeCost (escapeChar c) ≤ 1 + if c.toNat % 16 = 12 then 1 else 0 := by
  by_cases h : isPlain c
  · rw [escapeChar_of_isPlain h]
    exact (List.countP_le_length (l := [c])).trans (Nat.le_add_right _ _)
  · rcases not_isPlain_cases h with rfl | rfl | ⟨n, hn, rfl⟩
    · decide
    · decide
    · exact (escapeCost_control n hn).2

theorem escapeCost_flatMap_le (s : Text) : escapeCost s ≤ escapeCost (s.flatMap escapeChar) := by
  induction s with
  | nil => exact le_rfl
  | cons c s ih =>
    rw [escapeCost_cons, List.flatMap_cons, escapeCost_append]
    have hc : escapeCost [c] ≤ escapeCost (escapeChar c) := by
      by_cases h : isPlain c
      · rw [escapeChar_of_isPlain h]
      · exact (escapeCost_lt_of_not_isPlain h).le
    omega

/-- A character to be escaped makes the escaped text cost more than the text itself. -/
theorem escapeCost_lt_flatMap (hc : c ∈ s) (hp : ¬ isPlain c) :
    escapeCost s < escapeCost (s.flatMap escapeChar) := by
  obtain ⟨a, b, rfl⟩ := List.append_of_mem hc
  rw [List.flatMap_append, List.flatMap_cons, escapeCost_append, escapeCost_append, escapeCost_append,
    escapeCost_cons c]
  have ha := escapeCost_flatMap_le a
  have hlt := escapeCost_lt_of_not_isPlain hp
  have hb := escapeCost_flatMap_le b
  omega

/-! ## What is read was paid for -/

private theorem digitValue?_eq_twelve (h : Text.digitValue? c = some 12) : c = 'c' ∨ c = 'C' := by
  have hc : c = Char.ofNat c.toNat := (Char.ofNat_toNat c).symm
  have hn : c.toNat = 99 ∨ c.toNat = 67 := by
    have hvalue := Text.digitValue?_eq_some_iff.1 h
    omega
  rcases hn with hn | hn
  · exact Or.inl (by rw [hc, hn])
  · exact Or.inr (by rw [hc, hn])

/-- A number with one more digit. -/
private theorem addDigit_eq_some {m : Option Nat} {n : Nat}
    (h : (do let n ← m; let d ← Text.digitValue? c; if d < 16 then some (n * 16 + d) else none) = some n) :
    ∃ k d, m = some k ∧ Text.digitValue? c = some d ∧ d < 16 ∧ n = k * 16 + d := by
  obtain ⟨k, hk, h⟩ := Option.bind_eq_some_iff.1 h
  obtain ⟨d, hd, h⟩ := Option.bind_eq_some_iff.1 h
  split at h
  · next hlt =>
    rw [Option.some.injEq] at h
    exact ⟨k, d, hk, hd, hlt, h.symm⟩
  · simp at h

/-- Four hexadecimal digits, of which the last one is a c if the number ends with that digit. -/
theorem escapeCost_of_hexFour? {n : Nat} (h : hexFour? t = some (n, r)) :
    n < 65536 ∧ (if n % 16 = 12 then 1 else 0) + escapeCost r ≤ escapeCost t := by
  unfold hexFour? at h
  split at h
  · next a b c d r' =>
    obtain ⟨m, hm, heq⟩ := Option.map_eq_some_iff.1 h
    rw [Prod.mk.injEq] at heq
    obtain ⟨rfl, rfl⟩ := heq
    simp only [Text.natOfDigits?, List.foldl_cons, List.foldl_nil] at hm
    obtain ⟨m3, d4, hm3, hd4, hlt4, rfl⟩ := addDigit_eq_some hm
    obtain ⟨m2, d3, hm2, -, hlt3, rfl⟩ := addDigit_eq_some hm3
    obtain ⟨m1, d2, hm1, -, hlt2, rfl⟩ := addDigit_eq_some hm2
    obtain ⟨m0, d1, hm0, -, hlt1, rfl⟩ := addDigit_eq_some hm1
    rw [Option.some.injEq] at hm0
    refine ⟨by omega, ?_⟩
    rw [escapeCost_cons a, escapeCost_cons b, escapeCost_cons c, escapeCost_cons d]
    split
    · next hn =>
      have hd : 1 ≤ escapeCost [d] := by
        have h12 : d4 = 12 := by omega
        rw [h12] at hd4
        rcases digitValue?_eq_twelve hd4 with rfl | rfl <;> decide
      omega
    · omega
  · simp at h

theorem escapeCost_of_unicodeEscape? (h : unicodeEscape? t = some (c, r)) :
    escapeCost (escapeChar c) + escapeCost r ≤ 1 + escapeCost t := by
  obtain ⟨⟨n, r1⟩, hn, h⟩ := Option.bind_eq_some_iff.1 h
  obtain ⟨hlt, hcost⟩ := escapeCost_of_hexFour? hn
  simp only at h
  split at h
  · next hhigh =>
    simp only [Bool.and_eq_true, decide_eq_true_eq] at hhigh
    split at h
    · next r2 =>
      obtain ⟨⟨m, r3⟩, hm, h⟩ := Option.bind_eq_some_iff.1 h
      obtain ⟨-, hcost2⟩ := escapeCost_of_hexFour? hm
      simp only at h
      split at h
      · next hlow =>
        simp only [Bool.and_eq_true, decide_eq_true_eq] at hlow
        rw [Option.some.injEq, Prod.mk.injEq] at h
        obtain ⟨rfl, rfl⟩ := h
        -- the character of two groups is beyond those that are escaped
        have hval := Text.toNat_ofNat_of_isValidChar (n := 0x10000 + (n - 0xD800) * 0x400 + (m - 0xDC00))
          (Or.inr ⟨by omega, by omega⟩)
        have hle := escapeCost_escapeChar_le (Char.ofNat (0x10000 + (n - 0xD800) * 0x400 + (m - 0xDC00)))
        rw [escapeCost_cons, escapeCost_cons 'u'] at hcost
        have h1 : escapeCost ['\\'] = 1 := rfl
        have h2 : (if (Char.ofNat (0x10000 + (n - 0xD800) * 0x400 + (m - 0xDC00))).toNat % 16 = 12
          then 1 else 0) ≤ 1 := by split <;> omega
        omega
      · simp at h
    · simp at h
  · split at h
    · simp at h
    · next hhigh hlow =>
      simp only [Bool.and_eq_true, decide_eq_true_eq] at hhigh hlow
      rw [Option.some.injEq, Prod.mk.injEq] at h
      obtain ⟨rfl, rfl⟩ := h
      have hval : (Char.ofNat n).toNat = n := Text.toNat_ofNat_of_isValidChar (by
        rcases Nat.lt_or_ge n 0xD800 with hn | hn
        · exact Or.inl hn
        · exact Or.inr ⟨by omega, by omega⟩)
      have hle := escapeCost_escapeChar_le (Char.ofNat n)
      rw [hval] at hle
      omega

private theorem escapeCost_of_shortEscape? {e : Char} (h : shortEscape? e = some c) :
    escapeCost (escapeChar c) ≤ 1 + escapeCost [e] := by
  unfold shortEscape? at h
  repeat' split at h
  · next he =>
    simp only [Bool.or_eq_true, decide_eq_true_eq] at he
    rw [← Option.some.inj h]
    rcases he with (rfl | rfl) | rfl <;> decide
  · rw [← Option.some.inj h]
    exact Nat.le_add_right _ _
  · rw [← Option.some.inj h]
    exact Nat.le_add_right _ _
  · rw [← Option.some.inj h]
    exact Nat.le_add_right _ _
  · rw [← Option.some.inj h]
    exact Nat.le_add_right _ _
  · rw [← Option.some.inj h]
    exact Nat.le_add_right _ _
  · simp at h

/-- A string is read from a text that costs as much as it costs escaped. -/
theorem escapeCost_of_stringTail? {fuel : Nat} (h : stringTail? fuel t = some (s, r)) :
    escapeCost (s.flatMap escapeChar) + escapeCost r ≤ escapeCost t := by
  induction fuel generalizing t s with
  | zero => simp [stringTail?] at h
  | succ fuel ih =>
    have hcons : ∀ (c : Char) (s : Text), escapeCost ((c :: s).flatMap escapeChar) =
        escapeCost (escapeChar c) + escapeCost (s.flatMap escapeChar) := fun c s => by
      rw [List.flatMap_cons, escapeCost_append]
    unfold stringTail? at h
    split at h
    · simp at h
    · next r' =>
      rw [Option.some.injEq, Prod.mk.injEq] at h
      obtain ⟨rfl, rfl⟩ := h
      exact (Nat.zero_add _).le
    · next r' =>
      obtain ⟨⟨c, r1⟩, hc, h⟩ := Option.bind_eq_some_iff.1 h
      obtain ⟨⟨s', r2⟩, hs, h⟩ := Option.bind_eq_some_iff.1 h
      obtain ⟨rfl, rfl⟩ := h
      have h1 := escapeCost_of_unicodeEscape? hc
      have h2 := ih hs
      rw [hcons, escapeCost_cons, escapeCost_cons 'u']
      have h3 : escapeCost ['\\'] = 1 := rfl
      omega
    · next e r' _ =>
      obtain ⟨c, hc, h⟩ := Option.bind_eq_some_iff.1 h
      obtain ⟨⟨s', r2⟩, hs, h⟩ := Option.bind_eq_some_iff.1 h
      obtain ⟨rfl, rfl⟩ := h
      have h1 := escapeCost_of_shortEscape? hc
      have h2 := ih hs
      rw [hcons, escapeCost_cons, escapeCost_cons e]
      have h3 : escapeCost ['\\'] = 1 := rfl
      omega
    · next c r' hquote _ _ =>
      split at h
      · simp at h
      · next hc =>
        obtain ⟨⟨s', r2⟩, hs, h⟩ := Option.map_eq_some_iff.1 h
        rw [Prod.mk.injEq] at h
        obtain ⟨rfl, rfl⟩ := h
        have hplain : isPlain c := by
          simp only [Bool.or_eq_true, decide_eq_true_eq, not_or] at hc
          have hq : c ≠ '"' := fun hq => hquote hq
          simp only [isPlain, Bool.and_eq_true, decide_eq_true_eq]
          exact ⟨⟨hq, hc.1⟩, by omega⟩
        have h2 := ih hs
        rw [hcons, escapeChar_of_isPlain hplain, escapeCost_cons c r']
        omega

/-! ## Numbers -/

private theorem suffix_of_sign (t : Text) : (Binary64.sign t).2 <:+ t := by
  unfold Binary64.sign
  split
  · exact List.suffix_cons _ _
  · exact List.suffix_cons _ _
  · exact List.suffix_rfl

private theorem suffix_of_finishReal? {n : Nat} {e : Int} {x : Binary64}
    (h : finishReal? n e t = some (x, r)) : r <:+ t := by
  unfold finishReal? at h
  simp only at h
  split at h
  · next c r' =>
    split at h
    · split at h
      · simp at h
      · have hdrop : (Binary64.sign r').2.dropWhile Text.isDigit <:+ c :: r' :=
          (List.dropWhile_suffix _).trans ((suffix_of_sign r').trans (List.suffix_cons c r'))
        split at h
        · split at h
          · simp at h
          · simp only [Option.some.injEq, Prod.mk.injEq] at h
            exact h.2 ▸ hdrop
        · obtain ⟨y, -, h⟩ := Option.bind_eq_some_iff.1 h
          obtain ⟨-, rfl⟩ := h
          exact hdrop
    · obtain ⟨y, -, h⟩ := Option.bind_eq_some_iff.1 h
      obtain ⟨-, rfl⟩ := h
      exact List.suffix_rfl
  · obtain ⟨y, -, h⟩ := Option.bind_eq_some_iff.1 h
    obtain ⟨-, rfl⟩ := h
    exact List.suffix_rfl

private theorem suffix_of_unsigned? {negative : Bool} {n : Number}
    (h : unsigned? negative t = some (n, r)) : r <:+ t := by
  have hdrop : t.dropWhile Text.isDigit <:+ t := List.dropWhile_suffix _
  have hint : ∀ {m : Number}, some (m, t.dropWhile Text.isDigit) = some (n, r) → r <:+ t := by
    intro m h
    rw [Option.some.injEq, Prod.mk.injEq] at h
    exact h.2 ▸ hdrop
  have hpoint : ∀ {r' : Text}, t.dropWhile Text.isDigit = '.' :: r' → r'.dropWhile Text.isDigit <:+ t := by
    intro r' hr'
    exact (List.dropWhile_suffix _).trans ((List.suffix_cons '.' r').trans (hr' ▸ hdrop))
  have hreal : ∀ {m : Nat} {e : Int} {g : Binary64 × Text → Number} {r' : Text}, r' <:+ t →
      (do let x ← finishReal? m e r'; return (g x, x.2)) = some (n, r) → r <:+ t := by
    intro m e g r' hr' h
    obtain ⟨⟨x, r2⟩, hx, h⟩ := Option.bind_eq_some_iff.1 h
    obtain ⟨-, rfl⟩ := h
    exact (suffix_of_finishReal? hx).trans hr'
  unfold unsigned? at h
  simp only at h
  repeat' split at h
  all_goals first
    | exact hint h
    | exact hreal hdrop h
    | exact hreal (hpoint ‹_›) h
    | cases h

theorem suffix_of_number? {n : Number} (h : number? t = some (n, r)) : r <:+ t := by
  unfold number? at h
  split at h
  · exact (suffix_of_unsigned? h).trans (List.suffix_cons _ _)
  · exact suffix_of_unsigned? h

/-! ## Values -/

/-- What the strings of a value cost when they are escaped. -/
def stringsCost (ss : List Text) : Nat := (ss.map fun s => escapeCost (s.flatMap escapeChar)).sum

@[simp] theorem stringsCost_nil : stringsCost [] = 0 := rfl

@[simp] theorem stringsCost_cons (s : Text) (ss : List Text) :
    stringsCost (s :: ss) = escapeCost (s.flatMap escapeChar) + stringsCost ss := rfl

@[simp] theorem stringsCost_append (ss ss' : List Text) :
    stringsCost (ss ++ ss') = stringsCost ss + stringsCost ss' := by
  simp [stringsCost]

theorem sum_escapeCost_le (ss : List Text) : (ss.map escapeCost).sum ≤ stringsCost ss := by
  induction ss with
  | nil => exact le_rfl
  | cons s ss ih =>
    rw [List.map_cons, List.sum_cons, stringsCost_cons]
    exact Nat.add_le_add (escapeCost_flatMap_le s) ih

/-- The same for a list of texts. -/
theorem sum_escapeCost_lt {ss : List Text} (hs : s ∈ ss) (hc : c ∈ s) (hp : ¬ isPlain c) :
    (ss.map escapeCost).sum < stringsCost ss := by
  obtain ⟨a, b, rfl⟩ := List.append_of_mem hs
  rw [List.map_append, List.map_cons, List.sum_append, List.sum_cons, stringsCost_append, stringsCost_cons]
  have ha := sum_escapeCost_le a
  have hlt := escapeCost_lt_flatMap hc hp
  have hb := sum_escapeCost_le b
  omega

/-- A field that replaces another one costs no more than both. -/
theorem stringsCost_insert_le (key : Text) (v : Json) (fields : Fields) :
    stringsCost (stringsOfFields (fields.insert key v)) ≤
      stringsCost (key :: v.strings) + stringsCost (stringsOfFields fields) := by
  induction fields with
  | nil => simp [Fields.insert, stringsOfFields]
  | cons f fields ih =>
    obtain ⟨k, w⟩ := f
    rw [Fields.insert]
    split
    · simp [stringsOfFields]
      omega
    · simp [stringsOfFields]
      omega
    · simp [stringsOfFields] at ih ⊢
      omega

theorem stringsCost_ofList_le (pairs : List (Text × Json)) :
    stringsCost (stringsOfFields (Fields.ofList pairs)) ≤ stringsCost (stringsOfFields pairs) := by
  have hfold : ∀ fields : Fields,
      stringsCost (stringsOfFields (pairs.foldl (fun fields f => Fields.insert f.1 f.2 fields) fields)) ≤
        stringsCost (stringsOfFields fields) + stringsCost (stringsOfFields pairs) := by
    induction pairs with
    | nil => simp [stringsOfFields]
    | cons f pairs ih =>
      obtain ⟨k, v⟩ := f
      intro fields
      have h1 := ih (Fields.insert k v fields)
      have h2 := stringsCost_insert_le k v fields
      simp [stringsOfFields] at h1 h2 ⊢
      omega
  have h := hfold []
  rw [stringsOfFields, stringsCost_nil, Nat.zero_add] at h
  exact h

theorem escapeCost_skipSpace_le (t : Text) : escapeCost (skipSpace t) ≤ escapeCost t :=
  escapeCost_le_of_suffix (List.dropWhile_suffix _)

theorem escapeCost_tail_le (c : Char) (t : Text) : escapeCost t ≤ escapeCost (c :: t) :=
  escapeCost_le_of_suffix (List.suffix_cons c t)

theorem escapeCost_of_after? {p : Text} (h : Text.after? p t = some r) : escapeCost r ≤ escapeCost t := by
  rw [Text.after?_eq_some_iff.1 h]
  exact escapeCost_le_of_suffix (List.suffix_append p r)

/-- A word without strings is read from behind spaces. -/
private theorem stringsCost_of_word {p : Text} {v : Json} (hv : v.strings = [])
    (h : Text.after? p (skipSpace t) = some r) : stringsCost v.strings + escapeCost r ≤ escapeCost t := by
  have hspace := escapeCost_skipSpace_le t
  have hafter := escapeCost_of_after? h
  rw [hv, stringsCost_nil]
  omega

/-- With so much fuel, values are read from texts that cost as much as their strings. -/
private structure ReadsCost (fuel : Nat) : Prop where
  value {depth : Nat} {t r : Text} {v : Json} : value? fuel depth t = some (v, r) →
    stringsCost v.strings + escapeCost r ≤ escapeCost t
  items {depth : Nat} {t r : Text} {vs : List Json} : items? fuel depth t = some (vs, r) →
    stringsCost (stringsOfItems vs) + escapeCost r ≤ escapeCost t
  fields {depth : Nat} {t r : Text} {fs : List (Text × Json)} : fields? fuel depth t = some (fs, r) →
    stringsCost (stringsOfFields fs) + escapeCost r ≤ escapeCost t

namespace ReadsCost

variable {fuel depth : Nat}

theorem value_succ (ih : ReadsCost fuel) {v : Json} (h : value? (fuel + 1) depth t = some (v, r)) :
    stringsCost v.strings + escapeCost r ≤ escapeCost t := by
  unfold value? at h
  have hspace := escapeCost_skipSpace_le t
  split at h
  · next r1 ht =>
    obtain ⟨⟨s, r2⟩, hs, h⟩ := Option.map_eq_some_iff.1 h
    obtain ⟨rfl, rfl⟩ := Prod.mk.inj h
    have hstring := escapeCost_of_stringTail? hs
    have hquote := escapeCost_tail_le '"' r1
    rw [ht] at hspace
    simp [strings]
    omega
  · next r1 ht =>
    rw [ht] at hspace
    have hopen := escapeCost_tail_le '[' r1
    have hspace1 := escapeCost_skipSpace_le r1
    split at h
    · cases h
    · split at h
      · next r2 hr2 =>
        obtain ⟨rfl, rfl⟩ := Prod.mk.inj (Option.some.inj h)
        rw [hr2] at hspace1
        have hclose := escapeCost_tail_le ']' r2
        simp [strings, stringsOfItems]
        omega
      · obtain ⟨⟨vs, r2⟩, hvs, h⟩ := Option.map_eq_some_iff.1 h
        obtain ⟨rfl, rfl⟩ := Prod.mk.inj h
        have hitems := ih.items hvs
        rw [strings]
        omega
  · next r1 ht =>
    rw [ht] at hspace
    have hopen := escapeCost_tail_le '\x7b' r1
    have hspace1 := escapeCost_skipSpace_le r1
    split at h
    · cases h
    · split at h
      · next r2 hr2 =>
        obtain ⟨rfl, rfl⟩ := Prod.mk.inj (Option.some.inj h)
        rw [hr2] at hspace1
        have hclose := escapeCost_tail_le '\x7d' r2
        simp [strings, stringsOfFields]
        omega
      · obtain ⟨⟨fs, r2⟩, hfs, h⟩ := Option.map_eq_some_iff.1 h
        obtain ⟨rfl, rfl⟩ := Prod.mk.inj h
        have hfields := ih.fields hfs
        have hmap := stringsCost_ofList_le fs
        rw [strings]
        omega
  · -- what is left has no strings
    split at h
    · next hr =>
      obtain ⟨rfl, rfl⟩ := Prod.mk.inj (Option.some.inj h)
      exact stringsCost_of_word rfl hr
    · split at h
      · next hr =>
        obtain ⟨rfl, rfl⟩ := Prod.mk.inj (Option.some.inj h)
        exact stringsCost_of_word rfl hr
      · split at h
        · next hr =>
          obtain ⟨rfl, rfl⟩ := Prod.mk.inj (Option.some.inj h)
          exact stringsCost_of_word rfl hr
        · obtain ⟨⟨n, r2⟩, hn, h⟩ := Option.map_eq_some_iff.1 h
          obtain ⟨rfl, rfl⟩ := Prod.mk.inj h
          have hnumber := escapeCost_le_of_suffix (suffix_of_number? hn)
          rw [strings, stringsCost_nil]
          omega

theorem items_succ (ih : ReadsCost fuel) {vs : List Json} (h : items? (fuel + 1) depth t = some (vs, r)) :
    stringsCost (stringsOfItems vs) + escapeCost r ≤ escapeCost t := by
  obtain ⟨⟨v, r1⟩, hv, h⟩ := Option.bind_eq_some_iff.1 h
  have hvalue := ih.value hv
  have hspace := escapeCost_skipSpace_le r1
  simp only at h
  split at h
  · next r2 hr2 =>
    obtain ⟨⟨ws, r3⟩, hws, h⟩ := Option.bind_eq_some_iff.1 h
    have hitems := ih.items hws
    have hcomma := escapeCost_tail_le ',' r2
    rw [hr2] at hspace
    obtain ⟨rfl, rfl⟩ := h
    rw [stringsOfItems, stringsCost_append]
    dsimp only at hitems ⊢
    omega
  · next r2 hr2 =>
    have hclose := escapeCost_tail_le ']' r2
    obtain ⟨rfl, rfl⟩ := h
    rw [hr2] at hspace
    rw [stringsOfItems, stringsOfItems, List.append_nil]
    omega
  · cases h

theorem fields_succ (ih : ReadsCost fuel) {fs : List (Text × Json)}
    (h : fields? (fuel + 1) depth t = some (fs, r)) :
    stringsCost (stringsOfFields fs) + escapeCost r ≤ escapeCost t := by
  unfold fields? at h
  have hspace := escapeCost_skipSpace_le t
  split at h
  · next r1 hr1 =>
    rw [hr1] at hspace
    obtain ⟨⟨k, r2⟩, hk, h⟩ := Option.bind_eq_some_iff.1 h
    have hkey := escapeCost_of_stringTail? hk
    have hquote := escapeCost_tail_le '"' r1
    have hspace2 := escapeCost_skipSpace_le r2
    simp only at h
    split at h
    · next r3 hr3 =>
      rw [hr3] at hspace2
      obtain ⟨⟨v, r4⟩, hv, h⟩ := Option.bind_eq_some_iff.1 h
      have hvalue := ih.value hv
      have hcolon := escapeCost_tail_le ':' r3
      have hspace4 := escapeCost_skipSpace_le r4
      simp only at h
      split at h
      · next r5 hr5 =>
        obtain ⟨⟨gs, r6⟩, hgs, h⟩ := Option.bind_eq_some_iff.1 h
        have hfields := ih.fields hgs
        have hcomma := escapeCost_tail_le ',' r5
        rw [hr5] at hspace4
        obtain ⟨rfl, rfl⟩ := h
        rw [stringsOfFields, stringsCost_append, stringsCost_cons]
        dsimp only at hfields ⊢
        omega
      · next r5 hr5 =>
        have hclose := escapeCost_tail_le '\x7d' r5
        rw [hr5] at hspace4
        obtain ⟨rfl, rfl⟩ := h
        rw [stringsOfFields, stringsOfFields, List.append_nil, stringsCost_cons]
        omega
      · cases h
    · cases h
  · cases h

end ReadsCost

private theorem readsCost (fuel : Nat) : ReadsCost fuel := by
  induction fuel with
  | zero => constructor <;> simp [value?, items?, fields?]
  | succ fuel ih => exact ⟨ih.value_succ, ih.items_succ, ih.fields_succ⟩

/-- A value is read from no text that costs less than its strings do when they are escaped. -/
theorem stringsCost_le_of_parse? {v : Json} (h : parse? t = some v) :
    stringsCost v.strings ≤ escapeCost t := by
  obtain ⟨⟨w, r⟩, hw, h⟩ := Option.bind_eq_some_iff.1 h
  simp only at h
  split at h
  · rw [Option.some.injEq] at h
    have := (readsCost _).value hw
    rw [← h]
    omega
  · cases h

end Pagewright.Json
