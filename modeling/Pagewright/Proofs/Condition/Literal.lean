import Pagewright.Proofs.Binary64.Decimal
import Pagewright.Proofs.Condition.Injection
import Pagewright.Proofs.Json.Valid
import Pagewright.Proofs.Text.Character

/-!
# The tokens of a literal

A value in the place of a placeholder is written as its shortest JSON text, and a condition is read by a scanner
of its own. This module reads the text of a value as tokens: a name is one token (`Token.scanFrom_name`), a
decimal literal is one (`Token.scanFrom_number`), a negative number is a minus sign and a literal, and the
signs of arrays and objects are seams between their parts. `Token.scanFrom_compact` puts these together
for all valid values, and `Condition/Value.lean` goes on from the tokens to the value.
-/

namespace Pagewright.Condition

variable {c : Char} {n : Nat} {r z name : Text} {v : Json}

/-! ## Tokens of a value -/

/-- The tokens of a number: a minus sign is a token of its own. -/
def numberTokens : Number → List Token
  | .int i => (if i < 0 then [.minus] else []) ++ [.number (.ofInt i.natAbs)]
  | .real (.finite s m e) => (if s then [.minus] else []) ++ [.number (.finite false m e)]
  | .real _ => [.ident "null".toList]

mutual

/-- The tokens of the literal of a value. -/
def literalTokens : Json → List Token
  | .null => [.ident "null".toList]
  | .bool b => [.ident (if b then "true".toList else "false".toList)]
  | .number n => numberTokens n
  | .string t => [.string t]
  | .array items => .lbracket :: itemTokens items ++ [.rbracket]
  | .object fields => .lbrace :: fieldTokens fields ++ [.rbrace]

/-- The tokens of values with commas between them. -/
def itemTokens : List Json → List Token
  | [] => []
  | [v] => literalTokens v
  | v :: w :: rest => literalTokens v ++ .comma :: itemTokens (w :: rest)

/-- The tokens of fields with commas between them. -/
def fieldTokens : List (Text × Json) → List Token
  | [] => []
  | [(k, v)] => .string k :: .colon :: literalTokens v
  | (k, v) :: f :: rest => .string k :: .colon :: literalTokens v ++ .comma :: fieldTokens (f :: rest)

end

namespace Token

/-! ### Names -/

/-- White space is no part of a name. -/
theorem isNameChar_of_isBlank (h : Text.isBlank c) : isNameChar c = false := by
  have hne : c ≠ '_' ∧ c ≠ '$' := by
    constructor <;> rintro rfl <;> exact absurd h (by decide)
  simp [isNameChar, Text.isAlphanumeric_of_isBlank h, hne]

theorem isBlank_of_isNameChar (h : isNameChar c) : Text.isBlank c = false := by
  by_contra hblank
  rw [isNameChar_of_isBlank (by simpa using hblank)] at h
  cases h

/-! ### Numbers -/

open Binary64 in
private theorem exponentPart_exponentText (x : Option Int) :
    exponentPart (Literal.exponentText x) = (Literal.exponentText x, []) := by
  cases x with
  | none => rfl
  | some e =>
    have hdigits : ∀ c ∈ Text.ofNat e.natAbs, Text.isDigit c := fun c hc => isDigit_of_mem_ofNat hc
    have hnil : Text.ofNat e.natAbs ≠ [] := Nat.toDigits_ne_nil
    have hstart : startsWithDigit (Text.ofNat e.natAbs) = true := by
      obtain ⟨c, ds, hds⟩ := List.exists_cons_of_ne_nil hnil
      rw [hds]
      exact hdigits c (by rw [hds]; exact List.mem_cons_self)
    obtain ⟨htake, hdrop⟩ := Literal.span_digits (r := []) hdigits (by simp)
    rw [List.append_nil] at htake hdrop
    by_cases hneg : e < 0
    · simp [Literal.exponentText, exponentPart, hneg, hstart, htake, hdrop]
    · simp [Literal.exponentText, exponentPart, hneg, hstart, htake, hdrop]

open Binary64 in
private theorem fractionPart_fractionText {ds : Text} (hds : ∀ c ∈ ds, Text.isDigit c) (x : Option Int) :
    fractionPart (Literal.fractionText ds ++ Literal.exponentText x) =
      (Literal.fractionText ds, Literal.exponentText x) := by
  obtain ⟨htake, hdrop⟩ := Literal.span_digits hds (Literal.head?_exponentText x)
  cases ds with
  | nil =>
    cases x with
    | none => rfl
    | some e => rfl
  | cons c ds =>
    have hstart : startsWithDigit (c :: ds ++ Literal.exponentText x) = true := hds c List.mem_cons_self
    have hpoint : Literal.fractionText (c :: ds) = '.' :: c :: ds := rfl
    rw [hpoint, List.cons_append, fractionPart, if_pos hstart, htake, hdrop]

open Binary64 in
/-- A decimal literal is read to its end. -/
theorem numberLiteral_text (l : Literal) : numberLiteral l.text = (l.text, []) := by
  obtain ⟨htake, hdrop⟩ := Literal.span_digits l.isDigit_whole (Literal.head?_fractionText l.fraction l.exponent)
  unfold numberLiteral Literal.text
  dsimp only
  rw [htake, hdrop, fractionPart_fractionText l.isDigit_fraction, exponentPart_exponentText, List.append_assoc]

/-- A decimal literal is one token. -/
theorem scanFrom_number (l : Binary64.Literal) (n : Nat) :
    scanFrom n l.text = .ok [number l.value] := by
  obtain ⟨c, ds, hwhole⟩ := List.exists_cons_of_ne_nil l.whole_ne_nil
  have hc : Text.isDigit c := l.isDigit_whole c (by rw [hwhole]; exact List.mem_cons_self)
  obtain ⟨r, hr⟩ : ∃ r, l.text = c :: r := by
    rw [Binary64.Literal.text, hwhole]
    exact ⟨_, rfl⟩
  have hnext : next n c r = .ok (number l.value, []) := by
    rw [next, if_pos hc, ← hr, numberLiteral_text]
    dsimp only
    rw [Binary64.Literal.parse?_text]
  have hblank : Text.isBlank c = false := isBlank_of_isNameChar (isNameChar_of_isDigit hc)
  rw [hr, scanFrom_next hblank hnext, scanFrom_nil]
  rfl

/-! ### Names and signs -/

/-- A name: its first character can begin a name, the others can stand in one. -/
def IsName (name : Text) : Prop :=
  ∃ c r, name = c :: r ∧ isNameStart c ∧ ∀ d ∈ r, isNameChar d

theorem isNameChar_of_isNameStart (h : isNameStart c) : isNameChar c := by
  simp only [isNameStart, isNameChar, Text.isAlphanumeric, Bool.or_eq_true] at h ⊢
  tauto

theorem IsName.isNameChar_of_mem (h : IsName name) (hc : c ∈ name) : isNameChar c := by
  obtain ⟨d, r, rfl, hd, hr⟩ := h
  rcases List.mem_cons.1 hc with rfl | hc
  · exact isNameChar_of_isNameStart hd
  · exact hr c hc

private theorem isAlphabetic_of_lt (h : c.toNat < 0x41) : Text.isAlphabetic c = false := by
  unfold Text.isAlphabetic Text.alphabeticRanges Text.inRanges
  rw [if_pos h]

/-- No digit and no quote begins a name. -/
private theorem isNameStart_special (h : Text.isDigit c ∨ c = '"' ∨ c = '\'') : isNameStart c = false := by
  have hlt : c.toNat < 0x41 ∧ c ≠ '_' ∧ c ≠ '$' := by
    rcases h with h | rfl | rfl
    · have hd : 48 ≤ c.toNat ∧ c.toNat ≤ 57 := by simpa [Text.isDigit] using h
      refine ⟨by omega, ?_, ?_⟩ <;> rintro rfl <;> exact absurd hd (by decide)
    · decide
    · decide
  simp [isNameStart, isAlphabetic_of_lt hlt.1, hlt.2]

/-- A name is one token. -/
theorem scanFrom_name (h : IsName name) (n : Nat) : scanFrom n name = .ok [ident name] := by
  obtain ⟨c, r, rfl, hc, hr⟩ := h
  have hspecial : ¬ (Text.isDigit c ∨ c = '"' ∨ c = '\'') := fun hs => by
    rw [isNameStart_special hs] at hc
    cases hc
  obtain ⟨hdigit, hq⟩ := not_or.1 hspecial
  have htake : r.takeWhile isNameChar = r := List.takeWhile_eq_self_iff.2 hr
  have hdrop : r.dropWhile isNameChar = [] := List.dropWhile_eq_nil_iff.2 hr
  have hnext : next n c r = .ok (ident (c :: r), []) := by
    rw [next, if_neg hdigit, if_neg (by simpa using hq), if_pos hc, htake, hdrop]
  rw [scanFrom_next (isBlank_of_isNameChar (isNameChar_of_isNameStart hc)) hnext, scanFrom_nil]
  rfl

private theorem single_signs : ∀ c ∈ "[]\x7b\x7d,:-".toList,
    Text.isBlank c = false ∧ Text.isDigit c = false ∧ c ≠ '"' ∧ c ≠ '\'' ∧ isNameStart c = false := by
  decide

/-- A sign of one character is a token whatever follows. -/
theorem scanFrom_sign {token : Token} (hc : c ∈ "[]\x7b\x7d,:-".toList) (hs : sign? c r = some (token, r))
    (n : Nat) : scanFrom n (c :: r) = (scanFrom (n + c.utf8Size) r).map (token :: ·) := by
  obtain ⟨hblank, hdigit, hq, hq', hname⟩ := single_signs c hc
  have hnext : next n c r = .ok (token, r) := by
    rw [next, if_neg (by simp [hdigit]), if_neg (by simp [hq, hq']), if_neg (by simp [hname]), hs]
  have hread : n + Text.size (c :: r) - Text.size r = n + c.utf8Size := by
    rw [Text.size_cons]
    omega
  rw [scanFrom_next hblank hnext, hread]

/-! ### Values -/

variable {t t' : Text} {ts ts' : List Token} {token : Token}

/-- A sign between two texts is read between their tokens. -/
theorem scanFrom_append_sign (hd : c ∈ "]\x7d,:".toList) (hs : sign? c t' = some (token, t'))
    (ht : scanFrom n t = .ok ts) (ht' : ∀ m, scanFrom m t' = .ok ts') :
    scanFrom n (t ++ c :: t') = .ok (ts ++ token :: ts') := by
  have hseams : ∀ c ∈ "]\x7d,:".toList, isNameChar c = false ∧ c ≠ '.' ∧ c ≠ '+' ∧ c ≠ '-' ∧ c ≠ '=' := by
    decide
  have hsign : ∀ c ∈ "]\x7d,:".toList, c ∈ "[]\x7b\x7d,:-".toList := by decide
  rw [scanFrom_append (seam_cons.2 (hseams c hd)) ht, scanFrom_sign (hsign c hd) hs, ht']
  rfl

/-- A sign in front of a text is read before its tokens. -/
theorem scanFrom_cons_sign (hc : c ∈ "[]\x7b\x7d,:-".toList) (hs : sign? c t = some (token, t))
    (ht : ∀ m, scanFrom m t = .ok ts) (n : Nat) : scanFrom n (c :: t) = .ok (token :: ts) := by
  rw [scanFrom_sign hc hs, ht]
  rfl

theorem scanFrom_signText (l : Binary64.Literal) (s : Bool) (n : Nat) :
    scanFrom n (Binary64.signText s ++ l.text) = .ok ((if s then [.minus] else []) ++ [number l.value]) := by
  cases s with
  | false => exact scanFrom_number l n
  | true => exact scanFrom_cons_sign (by decide) rfl (scanFrom_number l) n

theorem scanFrom_numberText {k : Number} (hk : k.Valid) (n : Nat) :
    scanFrom n k.text = .ok (numberTokens k) := by
  match k with
  | .int (.ofNat i) =>
    have h := scanFrom_number (.ofNat i) n
    rw [Binary64.Literal.text_ofNat, Binary64.Literal.value_ofNat] at h
    exact h
  | .int (.negSucc i) =>
    have h := scanFrom_signText (.ofNat (i + 1)) true n
    rw [Binary64.Literal.text_ofNat, Binary64.Literal.value_ofNat] at h
    rw [numberTokens, if_pos (Int.negSucc_lt_zero i)]
    exact h
  | .real (.finite s m e) =>
    obtain ⟨l, htext, hvalue⟩ := Binary64.Literal.exists_scientificText hk
    have h := scanFrom_signText l s n
    rw [htext, hvalue] at h
    exact h

theorem isName_word (w : Text) (h : w ∈ ["null".toList, "true".toList, "false".toList]) : IsName w := by
  simp only [List.mem_cons, List.not_mem_nil, or_false] at h
  rcases h with rfl | rfl | rfl
  · exact ⟨'n', "ull".toList, rfl, by decide, by decide⟩
  · exact ⟨'t', "rue".toList, rfl, by decide, by decide⟩
  · exact ⟨'f', "alse".toList, rfl, by decide, by decide⟩

theorem scanFrom_quoted (s : Text) (n : Nat) : scanFrom n (Json.quote s) = .ok [string s] := by
  have h := scanFrom_quote n s []
  rw [List.append_nil, scanFrom_nil] at h
  exact h

mutual

/-- The literal of a value has its tokens. -/
theorem scanFrom_compact (v : Json) (hv : v.Valid) (n : Nat) :
    scanFrom n v.compact = .ok (literalTokens v) := by
  match v with
  | .null => exact scanFrom_name (isName_word "null".toList (by decide)) n
  | .bool true => exact scanFrom_name (isName_word "true".toList (by decide)) n
  | .bool false => exact scanFrom_name (isName_word "false".toList (by decide)) n
  | .number k => exact scanFrom_numberText hv n
  | .string s => exact scanFrom_quoted s n
  | .array items =>
    have hitems := scanFrom_compactItems items hv
    exact scanFrom_cons_sign (by decide) rfl
      (fun m => scanFrom_append_sign (by decide) rfl (hitems m) fun _ => scanFrom_nil) n
  | .object fields =>
    have hfields := scanFrom_compactFields fields hv.2
    exact scanFrom_cons_sign (by decide) rfl
      (fun m => scanFrom_append_sign (by decide) rfl (hfields m) fun _ => scanFrom_nil) n

theorem scanFrom_compactItems (items : List Json) (hv : Json.ValidItems items) (n : Nat) :
    scanFrom n (Json.compactItems items) = .ok (itemTokens items) := by
  match items with
  | [] => exact scanFrom_nil
  | [v] => exact scanFrom_compact v hv.1 n
  | v :: w :: rest =>
    exact scanFrom_append_sign (by decide) rfl (scanFrom_compact v hv.1 n)
      (scanFrom_compactItems (w :: rest) hv.2)

theorem scanFrom_compactFields (fields : List (Text × Json)) (hv : Json.ValidFields fields) (n : Nat) :
    scanFrom n (Json.compactFields fields) = .ok (fieldTokens fields) := by
  match fields with
  | [] => exact scanFrom_nil
  | [(k, v)] =>
    exact scanFrom_append_sign (by decide) rfl (scanFrom_quoted k n) (scanFrom_compact v hv.1)
  | (k, v) :: f :: rest =>
    have hfield := scanFrom_append_sign (c := ':') (by decide) rfl (scanFrom_quoted k n)
      (scanFrom_compact v hv.1)
    have hrest := scanFrom_compactFields (f :: rest) hv.2
    exact scanFrom_append_sign (by decide) rfl hfield hrest

end

end Token

end Pagewright.Condition
