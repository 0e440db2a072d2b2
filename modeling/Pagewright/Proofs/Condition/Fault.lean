import Mathlib.Algebra.Group.Nat.Even
import Mathlib.Data.List.DropRight
import Pagewright.Proofs.Condition.Scan
import Pagewright.Proofs.Template.Offsets
import Pagewright.Proofs.Text.Digits

/-!
# Texts that have no tokens

When a condition cannot be split into tokens, the error says what is wrong and where. Four things live here:

* what stands inside of a quoted text (`Inside`): a quote in it is behind an odd number of backslashes, and what comes
  next is not;
* escapes with the code of a character, and those without one (`IsBadEscape`);
* what can be wrong with a text, said without the scanner (`IsFault`): the fault begins behind the longest front that
  has tokens. There is nothing that can be wrong with a number;
* a text has an error if and only if this is what is wrong with it (`scan_eq_error_iff`), so the offset is that of a
  character.
-/

namespace Pagewright.Condition

/-- The offset that an error of the scanner names. -/
def ConditionError.offset? : ConditionError → Option Nat
  | unexpectedChar _ n | unterminatedString n | invalidEscape n => some n
  | _ => none

namespace Token

variable {c quote : Char} {n start : Nat} {r t u v inner behind : Text} {e e' : ConditionError}

/-! ## Backslashes -/

/-- What comes behind the text is escaped: the text ends with backslashes, and their number is odd. -/
def EscapesNext (u : Text) : Prop := Odd (u.rtakeWhile (· = '\\')).length

theorem not_escapesNext_nil : ¬ EscapesNext [] := by
  simp [EscapesNext]

/-- A backslash that is escaped itself escapes nothing. -/
theorem escapesNext_concat : EscapesNext (u ++ [c]) ↔ c = '\\' ∧ ¬ EscapesNext u := by
  unfold EscapesNext
  rw [List.rtakeWhile_concat]
  by_cases hc : c = '\\'
  · simp [hc, Nat.odd_add_one]
  · simp [hc]

theorem escapesNext_append (hu : ¬ EscapesNext u) : EscapesNext (u ++ v) ↔ EscapesNext v := by
  induction v using List.reverseRecOn with
  | nil => simp [hu, not_escapesNext_nil]
  | append_singleton v c ih => rw [← List.append_assoc, escapesNext_concat, escapesNext_concat, ih]

theorem escapesNext_backslash : EscapesNext ['\\'] := escapesNext_concat.2 ⟨rfl, not_escapesNext_nil⟩

/-- No quote ends the text: each one is escaped. -/
def Unclosed (quote : Char) (r : Text) : Prop := ∀ inner after, r = inner ++ quote :: after → EscapesNext inner

theorem unclosed_of_notMem (h : quote ∉ r) : Unclosed quote r := by
  rintro inner after rfl
  exact absurd (List.mem_append_right inner List.mem_cons_self) h

theorem Unclosed.append (hu : Unclosed quote u) (hend : ¬ EscapesNext u) (hr : Unclosed quote r) :
    Unclosed quote (u ++ r) := by
  intro inner after heq
  rcases List.append_eq_append_iff.1 heq with ⟨w, rfl, hw⟩ | ⟨w, hw, hafter⟩
  · exact (escapesNext_append hend).2 (hr w after hw)
  · cases w with
    | nil => exact absurd (hr [] after hafter.symm) not_escapesNext_nil
    | cons d w =>
      obtain ⟨rfl, -⟩ := List.cons.inj hafter
      exact hu inner w hw

/-! ## Inside of a quoted text -/

/-- What stands inside of a quoted text: no quote ends it, and what comes next is not escaped. -/
structure Inside (quote : Char) (u : Text) : Prop where
  unclosed : Unclosed quote u
  not_escapesNext : ¬ EscapesNext u

theorem inside_of_notMem (hq : quote ∉ u) (hb : '\\' ∉ u) : Inside quote u := by
  refine ⟨unclosed_of_notMem hq, ?_⟩
  cases u using List.reverseRecOn with
  | nil => exact not_escapesNext_nil
  | append_singleton u c =>
    rw [escapesNext_concat]
    rintro ⟨rfl, -⟩
    exact hb (List.mem_append_right u List.mem_cons_self)

theorem inside_nil : Inside quote [] := inside_of_notMem List.not_mem_nil List.not_mem_nil

theorem inside_append_iff (hu : Inside quote u) : Inside quote (u ++ v) ↔ Inside quote v := by
  constructor
  · rintro ⟨hclosed, hend⟩
    refine ⟨?_, mt (escapesNext_append hu.not_escapesNext).2 hend⟩
    rintro inner after rfl
    rw [← escapesNext_append hu.not_escapesNext]
    exact hclosed (u ++ inner) after (List.append_assoc u inner _).symm
  · rintro ⟨hclosed, hend⟩
    exact ⟨hu.unclosed.append hu.not_escapesNext hclosed, mt (escapesNext_append hu.not_escapesNext).1 hend⟩

/-- A backslash and any character behind it. -/
theorem inside_escape (hq : '\\' ≠ quote) (c : Char) : Inside quote ['\\', c] := by
  constructor
  · intro inner after heq
    rcases inner with _ | ⟨d, _ | ⟨d', inner⟩⟩
    · exact absurd (List.cons.inj heq).1 hq
    · obtain ⟨rfl, -⟩ := List.cons.inj heq
      exact escapesNext_backslash
    · simp at heq
  · rw [show ['\\', c] = ['\\'] ++ [c] from rfl, escapesNext_concat]
    exact fun h => h.2 escapesNext_backslash

/-! ## Codes of characters -/

/-- Four hexadecimal digits that give the code of a character. -/
def IsCodeOf (ds : Text) (x : Char) : Prop :=
  ∃ a b c d, List.Forall₂ Text.IsHexDigit ds [a, b, c, d] ∧ ((a * 16 + b) * 16 + c) * 16 + d = x.toNat

theorem IsCodeOf.length_eq {ds : Text} {x : Char} (h : IsCodeOf ds x) : ds.length = 4 := by
  obtain ⟨_, _, _, _, hds, -⟩ := h
  exact hds.length_eq

theorem charOfHex?_eq_some_iff_toNat {ds : Text} {x : Char} :
    charOfHex? ds = some x ↔ Text.natOfDigits? 16 ds = some x.toNat := by
  rw [charOfHex?]
  constructor
  · intro h
    cases hread : Text.natOfDigits? 16 ds with
    | none =>
      rw [hread] at h
      cases h
    | some n =>
      rw [hread] at h
      dsimp only at h
      by_cases hvalid : n.isValidChar
      · rw [dif_pos hvalid] at h
        cases h
        rfl
      · rw [dif_neg hvalid] at h
        cases h
  · intro hread
    have hvalid : x.toNat.isValidChar := x.valid
    have hx : Char.ofNat x.toNat = x := Char.ofNat_toNat x
    rw [Char.ofNat, dif_pos hvalid] at hx
    rw [hread]
    dsimp only
    rw [dif_pos hvalid, hx]

/-- Four characters are read as a character if and only if they are its code. -/
theorem charOfHex?_eq_some_iff {ds : Text} {x : Char} (hlength : ds.length = 4) :
    charOfHex? ds = some x ↔ IsCodeOf ds x := by
  have hne : ds ≠ [] := List.ne_nil_of_length_pos (by omega)
  rw [charOfHex?_eq_some_iff_toNat, Text.natOfDigits?_eq_some_iff]
  constructor
  · rintro ⟨-, vs, hvs, hx⟩
    obtain ⟨a, b, c, d, rfl⟩ := List.length_eq_four.1 (hvs.length_eq.symm.trans hlength)
    refine ⟨a, b, c, d, hvs.imp fun c v => Text.isDigitOf_iff_isHexDigit.1, ?_⟩
    simpa [Text.digitsFrom] using hx
  · rintro ⟨a, b, c, d, hds, hx⟩
    refine ⟨hne, [a, b, c, d], hds.imp fun c v => Text.isDigitOf_iff_isHexDigit.2, ?_⟩
    simpa [Text.digitsFrom] using hx

/-- The text begins with the code of a character. -/
def BeginsWithCode (r : Text) : Prop := ∃ ds x, ds <+: r ∧ IsCodeOf ds x

theorem not_beginsWithCode_of_length (h : r.length < 4) : ¬ BeginsWithCode r := by
  rintro ⟨ds, x, hstarts, hcode⟩
  have hfour := hcode.length_eq
  have hle := hstarts.length_le
  omega

theorem not_beginsWithCode {a b d e : Char} (h : charOfHex? [a, b, d, e] = none) :
    ¬ BeginsWithCode (a :: b :: d :: e :: r) := by
  rintro ⟨ds, x, hstarts, hcode⟩
  obtain rfl : ds = [a, b, d, e] := by
    rw [List.prefix_iff_eq_take.1 hstarts, hcode.length_eq]
    rfl
  rw [(charOfHex?_eq_some_iff rfl).2 hcode] at h
  cases h

/-- The quotes around a text. -/
def quotes : Text := ['"', '\'']

theorem backslash_ne (hquote : quote ∈ quotes) : '\\' ≠ quote := by
  rintro rfl
  simp [quotes] at hquote

/-- What a character is read from are digits. -/
theorem facts_of_charOfHex? {ds : Text} {x : Char} (h : charOfHex? ds = some x) (hc : c ∈ ds) :
    c.utf8Size = 1 ∧ c ∉ '\\' :: quotes := by
  have hnone : ∀ c ∈ '\\' :: quotes, Text.digitValue? c = none := by decide
  obtain ⟨v, hv⟩ := Text.exists_isDigitOf_of_mem (charOfHex?_eq_some_iff_toNat.1 h) hc
  refine ⟨hv.utf8Size_eq_one, fun hmem => ?_⟩
  rw [Text.IsDigitOf, hnone c hmem] at hv
  cases hv.1

theorem inside_unicode {x : Char} {ds : Text} (hquote : quote ∈ quotes) (h : charOfHex? ds = some x) :
    Inside quote ('\\' :: 'u' :: ds) := by
  apply (inside_append_iff (inside_escape (backslash_ne hquote) 'u')).2
  apply inside_of_notMem
  · exact fun hmem => (facts_of_charOfHex? h hmem).2 (List.mem_cons_of_mem _ hquote)
  · exact fun hmem => (facts_of_charOfHex? h hmem).2 List.mem_cons_self

/-! ## Quoted texts without an end -/

/-- In a quoted text a `\u` stands behind some part of it, and there is no code behind that. -/
structure IsBadEscape (quote : Char) (r inner behind : Text) : Prop where
  eq_append : r = inner ++ '\\' :: 'u' :: behind
  inside : Inside quote inner
  not_code : ¬ BeginsWithCode behind

theorem IsBadEscape.two_le (h : IsBadEscape quote r inner behind) : 2 ≤ r.length := by
  rw [h.eq_append, List.length_append, List.length_cons, List.length_cons]
  omega

/-- What is wrong behind the opening quote of a text: it does not end, or it has an escape without a code, of which the
first one counts. The quote stands at the offset `start`, and `n` is the offset behind it. -/
inductive IsQuotedFault (quote : Char) (start n : Nat) (r : Text) : ConditionError → Prop
  | unterminatedString (hr : Unclosed quote r) (hgood : ∀ inner behind, ¬ IsBadEscape quote r inner behind) :
    IsQuotedFault quote start n r (.unterminatedString start)
  | invalidEscape {inner behind : Text} (hbad : IsBadEscape quote r inner behind)
    (hfirst : ∀ inner' behind', IsBadEscape quote r inner' behind' → inner.length ≤ inner'.length) :
    IsQuotedFault quote start n r (.invalidEscape (n + Text.size (inner ++ ['\\'])))

theorem IsQuotedFault.unique (h : IsQuotedFault quote start n r e) (h' : IsQuotedFault quote start n r e') :
    e = e' := by
  cases h with
  | unterminatedString hr hgood =>
    cases h' with
    | unterminatedString hr' hgood' => rfl
    | invalidEscape hbad hfirst => exact absurd hbad (hgood _ _)
  | @invalidEscape inner behind hbad hfirst =>
    cases h' with
    | unterminatedString hr' hgood' => exact absurd hbad (hgood' _ _)
    | @invalidEscape inner' behind' hbad' hfirst' =>
      have hlength : inner.length = inner'.length := Nat.le_antisymm (hfirst _ _ hbad') (hfirst' _ _ hbad)
      have hinner : inner = inner' :=
        (List.append_inj (hbad.eq_append.symm.trans hbad'.eq_append) hlength).1
      rw [hinner]

/-- A part of the quoted text stands in front of a fault, if no bad escape begins in it. -/
theorem IsQuotedFault.append (h : IsQuotedFault quote start (n + Text.size u) r e) (hu : Inside quote u)
    (hpart : ∀ inner behind, IsBadEscape quote (u ++ r) inner behind → u <+: inner) :
    IsQuotedFault quote start n (u ++ r) e := by
  have hrest : ∀ inner behind, IsBadEscape quote (u ++ r) inner behind →
      ∃ w, inner = u ++ w ∧ IsBadEscape quote r w behind := by
    intro inner behind hbad
    obtain ⟨w, rfl⟩ := hpart inner behind hbad
    have heq := hbad.eq_append
    rw [List.append_assoc] at heq
    exact ⟨w, rfl, List.append_cancel_left heq, (inside_append_iff hu).1 hbad.inside, hbad.not_code⟩
  cases h with
  | unterminatedString hr hgood =>
    refine .unterminatedString (hu.unclosed.append hu.not_escapesNext hr) fun inner behind hbad => ?_
    obtain ⟨w, -, hw⟩ := hrest inner behind hbad
    exact hgood w behind hw
  | @invalidEscape inner behind hbad hfirst =>
    have hsize : n + Text.size u + Text.size (inner ++ ['\\']) = n + Text.size (u ++ inner ++ ['\\']) := by
      rw [List.append_assoc, Text.size_append u, Nat.add_assoc]
    rw [hsize]
    refine .invalidEscape ⟨?_, (inside_append_iff hu).2 hbad.inside, hbad.not_code⟩ fun inner' behind' hbad' => ?_
    · rw [hbad.eq_append, List.append_assoc]
    · obtain ⟨w, rfl, hw⟩ := hrest inner' behind' hbad'
      have hle := hfirst w behind' hw
      rw [List.length_append, List.length_append]
      omega

/-- No backslash is in the part, so it ends before the escape begins. -/
theorem prefix_of_notMem (hb : '\\' ∉ u) (h : u ++ r = inner ++ '\\' :: behind) : u <+: inner := by
  rcases List.append_eq_append_iff.1 h with ⟨w, rfl, -⟩ | ⟨w, rfl, hw⟩
  · exact List.prefix_append u w
  · cases w with
    | nil => rw [List.append_nil]
    | cons d w =>
      obtain ⟨rfl, -⟩ := List.cons.inj hw
      exact absurd (List.mem_append_right inner List.mem_cons_self) hb

/-- A bad escape that does not begin at the front backslash begins behind the character that it escapes. -/
theorem IsBadEscape.exists_behind (h : IsBadEscape quote ('\\' :: c :: r) inner behind) (hne : inner ≠ []) :
    ∃ w, inner = '\\' :: c :: w ∧ r = w ++ '\\' :: 'u' :: behind := by
  have heq := h.eq_append
  rcases inner with _ | ⟨d, _ | ⟨d', w⟩⟩
  · exact absurd rfl hne
  · obtain ⟨rfl, -⟩ := List.cons.inj heq
    exact absurd escapesNext_backslash h.inside.not_escapesNext
  · obtain ⟨rfl, htail⟩ := List.cons.inj heq
    obtain ⟨rfl, hrest⟩ := List.cons.inj htail
    exact ⟨w, rfl, hrest⟩

theorem IsBadEscape.prefix_escape (h : IsBadEscape quote ('\\' :: c :: r) inner behind) (hu : c ≠ 'u') :
    ['\\', c] <+: inner := by
  by_cases hnil : inner = []
  · subst hnil
    exact absurd (List.cons.inj (List.cons.inj h.eq_append).2).1 hu
  · obtain ⟨w, rfl, -⟩ := h.exists_behind hnil
    exact List.prefix_append ['\\', c] w

/-- An escape with a code is no bad one, and none begins between its digits. -/
theorem IsBadEscape.prefix_unicode {a b d e x : Char}
    (h : IsBadEscape quote ('\\' :: 'u' :: a :: b :: d :: e :: r) inner behind) (hx : charOfHex? [a, b, d, e] = some x) :
    ['\\', 'u', a, b, d, e] <+: inner := by
  by_cases hnil : inner = []
  · subst hnil
    have hbehind : behind = [a, b, d, e] ++ r := by simpa using h.eq_append.symm
    have hcode : IsCodeOf [a, b, d, e] x := (charOfHex?_eq_some_iff rfl).1 hx
    exact absurd ⟨[a, b, d, e], x, ⟨r, hbehind.symm⟩, hcode⟩ h.not_code
  · obtain ⟨w, rfl, hw⟩ := h.exists_behind hnil
    have hdigits : '\\' ∉ [a, b, d, e] := fun hmem => (facts_of_charOfHex? hx hmem).2 List.mem_cons_self
    have hstarts : [a, b, d, e] <+: w := prefix_of_notMem hdigits hw
    simpa using hstarts

/-- The error for a quoted text is what is wrong with it. -/
theorem isQuotedFault_of_quotedTail (hquote : quote ∈ quotes) (h : quotedTail quote start n r = .error e) :
    IsQuotedFault quote start n r e := by
  have hback := backslash_ne hquote
  fun_induction quotedTail quote start n r with
  | case1 n =>
    cases h
    refine .unterminatedString (unclosed_of_notMem List.not_mem_nil) fun inner behind hbad => ?_
    exact absurd hbad.two_le (by simp)
  | case2 n r => cases h
  | case3 n hq =>
    cases h
    refine .unterminatedString (unclosed_of_notMem (by simpa using hback.symm)) fun inner behind hbad => ?_
    exact absurd hbad.two_le (by simp)
  | case4 n a b d e r hx hq =>
    cases h
    exact .invalidEscape ⟨rfl, inside_nil, not_beginsWithCode hx⟩ fun _ _ _ => Nat.zero_le _
  | case5 n a b d e r x hx hq ih =>
    have hone : ∀ c ∈ [a, b, d, e], c.utf8Size = 1 := fun c hc => (facts_of_charOfHex? hx hc).1
    have hsize : Text.size ('\\' :: 'u' :: [a, b, d, e]) = 6 := by
      show 1 + (1 + Text.size [a, b, d, e]) = 6
      simp [hone]
    have hr := ih (eq_error_of_map h)
    rw [← hsize] at hr
    apply hr.append (inside_unicode hquote hx)
    exact fun inner behind hbad => hbad.prefix_unicode hx
  | case6 n r hq hshort =>
    cases h
    refine .invalidEscape ⟨rfl, inside_nil, not_beginsWithCode_of_length ?_⟩ fun _ _ _ => Nat.zero_le _
    rcases r with _ | ⟨a, _ | ⟨b, _ | ⟨d, _ | ⟨e, r⟩⟩⟩⟩
    case cons.cons.cons.cons => exact (hshort a b d e r rfl rfl).elim
    all_goals simp
  | case7 n c r _ hu hq ih =>
    have hr := ih (eq_error_of_map h)
    rw [Nat.add_assoc] at hr
    apply hr.append (inside_escape hback c)
    exact fun inner behind hbad => hbad.prefix_escape hu
  | case8 n c r hq hb ih =>
    have hinner : Inside quote [c] := inside_of_notMem (by simpa using Ne.symm hq) (by simpa using Ne.symm hb)
    have hr := ih (eq_error_of_map h)
    apply hr.append hinner
    intro inner behind hbad
    exact prefix_of_notMem (by simpa using Ne.symm hb) hbad.eq_append

/-! ## Characters that begin nothing -/

/-- A token that is always written in the same way. -/
def isSign : Token → Bool
  | number _ | string _ | ident _ => false
  | _ => true

theorem eq_append_of_sign? {token : Token} {rest : Text} (h : sign? c r = some (token, rest)) :
    token.isSign ∧ c :: r = token.text ++ rest := by
  have hc := mem_of_sign? h
  simp at hc
  rcases hc with rfl | rfl | rfl | rfl | rfl | rfl | rfl | rfl | rfl | rfl | rfl | rfl | rfl | rfl | rfl | rfl
  iterate 10
    · cases h
      exact ⟨rfl, rfl⟩
  all_goals
    unfold sign? at h
    simp only [Char.reduceEq, ↓reduceIte] at h
    split at h
  all_goals cases h
  all_goals exact ⟨rfl, rfl⟩

theorem not_prefix_of_sign? (h : sign? c r = none) {token : Token} (hsign : token.isSign) :
    ¬ token.text <+: c :: r := by
  rintro ⟨z, hz⟩
  -- for the characters of the token there is a branch, which finds a token
  cases token with
  | number x => cases hsign
  | string t => cases hsign
  | ident name => cases hsign
  | operator o =>
    cases o
    all_goals
      simp only [Token.text, Operator.text, String.reduceToList, List.cons_append, List.nil_append, List.cons.injEq] at hz
      obtain ⟨rfl, rfl⟩ := hz
      unfold sign? at h
      simp only [Char.reduceEq, ↓reduceIte] at h
    case eq =>
      split at h
      · cases h
      · cases h
      · next hne => exact hne z rfl
    case notEq | lt | gt =>
      split at h
      all_goals cases h
    all_goals cases h
  | not =>
    obtain ⟨rfl, rfl⟩ := List.cons.inj hz
    unfold sign? at h
    simp only [Char.reduceEq, ↓reduceIte] at h
    split at h
    all_goals cases h
  | _ =>
    obtain ⟨rfl, rfl⟩ := List.cons.inj hz
    unfold sign? at h
    simp at h

/-- No token begins with the character and what is behind it. -/
structure BeginsNothing (c : Char) (r : Text) : Prop where
  isBlank : Text.isBlank c = false
  isDigit : Text.isDigit c = false
  notMem_quotes : c ∉ quotes
  isNameStart : isNameStart c = false
  not_begins : ∀ token : Token, token.isSign → ¬ token.text <+: c :: r

/-! ## Faults -/

/-- The text can be split into tokens. -/
def HasTokens (t : Text) : Prop := ∃ ts, scan t = .ok ts

/-- What is wrong with a text, behind the longest front that has tokens. -/
inductive IsFault (t : Text) : ConditionError → Prop
  | unexpectedChar {front r : Text} {c : Char} (ht : t = front ++ c :: r) (hfront : IsLongest HasTokens t front)
    (hc : BeginsNothing c r) : IsFault t (.unexpectedChar c (Text.size front))
  | quoted {front r : Text} {quote : Char} {e : ConditionError} (ht : t = front ++ quote :: r)
    (hfront : IsLongest HasTokens t front) (hquote : quote ∈ quotes)
    (h : IsQuotedFault quote (Text.size front) (Text.size (front ++ [quote])) r e) : IsFault t e

/-- Nothing is wrong in two ways. -/
theorem IsFault.unique (h : IsFault t e) (h' : IsFault t e') : e = e' := by
  cases h with
  | unexpectedChar ht hfront hc =>
    cases h' with
    | unexpectedChar ht' hfront' hc' =>
      obtain ⟨rfl, -⟩ := hfront.split_unique hfront' ht ht'
      rw [hfront.unique hfront']
    | quoted ht' hfront' hquote h' =>
      obtain ⟨rfl, -⟩ := hfront.split_unique hfront' ht ht'
      exact absurd hquote hc.notMem_quotes
  | quoted ht hfront hquote h =>
    cases h' with
    | unexpectedChar ht' hfront' hc =>
      obtain ⟨rfl, -⟩ := hfront.split_unique hfront' ht ht'
      exact absurd hquote hc.notMem_quotes
    | quoted ht' hfront' hquote' h' =>
      obtain ⟨rfl, rfl⟩ := hfront.split_unique hfront' ht ht'
      rw [← hfront.unique hfront'] at h'
      exact h.unique h'

/-- A text with something wrong has no tokens: it would be a longer front itself. -/
theorem IsFault.not_hasTokens (h : IsFault t e) : ¬ HasTokens t := by
  intro hwhole
  obtain ⟨front, c, r, ht, hfront⟩ : ∃ front c r, t = front ++ c :: r ∧ IsLongest HasTokens t front := by
    cases h with
    | unexpectedChar ht hfront hc => exact ⟨_, _, _, ht, hfront⟩
    | quoted ht hfront hquote h => exact ⟨_, _, _, ht, hfront⟩
  have hle := hfront.length_le t List.prefix_rfl hwhole
  rw [ht, List.length_append, List.length_cons] at hle
  omega

/-- The offset of a fault is that of a character. -/
theorem IsFault.exists_offset (h : IsFault t e) : ∃ n, e.offset? = some n ∧ Text.IsOffset t n := by
  cases h with
  | unexpectedChar ht hfront hc => exact ⟨_, rfl, Text.isOffset_append _ _ ht⟩
  | @quoted front r quote e ht hfront hquote h =>
    cases h with
    | unterminatedString hr hgood => exact ⟨_, rfl, Text.isOffset_append _ _ ht⟩
    | @invalidEscape inner behind hbad hfirst =>
      refine ⟨_, rfl, ?_⟩
      rw [← Text.size_append]
      apply Text.isOffset_append _ ('u' :: behind)
      rw [ht, hbad.eq_append]
      simp

/-! ## Errors -/

theorem next_of_beginsNothing (hc : BeginsNothing c r) : next n c r = .error (.unexpectedChar c n) := by
  have hquote : ¬ ((c = '"' || c = '\'') = true) := by simpa [quotes] using hc.notMem_quotes
  have hsign : sign? c r = none := by
    cases hs : sign? c r with
    | none => rfl
    | some found =>
      obtain ⟨token, rest⟩ := found
      obtain ⟨hsign, heq⟩ := eq_append_of_sign? hs
      exact absurd ⟨rest, heq.symm⟩ (hc.not_begins token hsign)
  rw [next, if_neg (by simp [hc.isDigit]), if_neg hquote, if_neg (by simp [hc.isNameStart]), hsign]

theorem next_of_quote (hquote : quote ∈ quotes) :
    next n quote r = (quotedTail quote n (n + 1) r).map fun (s, rest) => (string s, rest) := by
  have hdigit : ∀ quote ∈ quotes, Text.isDigit quote = false := by decide
  have heq : (quote = '"' || quote = '\'') = true := by simpa [quotes] using hquote
  rw [next, if_neg (by simp [hdigit quote hquote]), if_pos heq]

/-- A number is always read. -/
theorem exists_parse?_numberLiteral (hc : Text.isDigit c) (r : Text) :
    ∃ x, Binary64.parse? (numberLiteral (c :: r)).1 = some x :=
  (isLongest_numberLiteral hc r).isKind.exists_parse?

/-- There are two reasons for no token: nothing begins, or a quoted text has no end. -/
theorem next_eq_error (hblank : Text.isBlank c = false) (h : next n c r = .error e) :
    BeginsNothing c r ∧ e = .unexpectedChar c n ∨ c ∈ quotes ∧ quotedTail c n (n + 1) r = .error e := by
  unfold next at h
  split at h
  · next hc =>
    obtain ⟨x, hx⟩ := exists_parse?_numberLiteral hc r
    dsimp only at h
    rw [hx] at h
    cases h
  · next hdigit =>
    split at h
    · next hquote => exact Or.inr ⟨by simpa [quotes] using hquote, eq_error_of_map h⟩
    · next hquote =>
      split at h
      · cases h
      · next hname =>
        split at h
        · cases h
        · next hs =>
          have hc : BeginsNothing c r :=
            { isBlank := hblank
              isDigit := by simpa using hdigit
              notMem_quotes := by simpa [quotes] using hquote
              isNameStart := by simpa using hname
              not_begins := fun token => not_prefix_of_sign? hs }
          exact Or.inl ⟨hc, (Except.error.inj h).symm⟩

/-- There is no token either when the text is cut off. -/
theorem next_ne_ok_of_cut (hblank : Text.isBlank c = false) (h : next n c r = .error e) (hw : u <+: r)
    (found : Token × Text) : next n c u ≠ .ok found := by
  intro hfound
  rcases next_eq_error hblank h with ⟨hc, -⟩ | ⟨hquote, hr⟩
  · have hcut : BeginsNothing c u :=
      { hc with not_begins := fun token hsign hstarts =>
          hc.not_begins token hsign (hstarts.trans (List.cons_prefix_cons.2 ⟨rfl, hw⟩)) }
    rw [next_of_beginsNothing hcut] at hfound
    cases hfound
  · obtain ⟨z, rfl⟩ := hw
    rw [next_of_quote hquote] at hfound
    obtain ⟨⟨s, rest⟩, hs, -⟩ := exists_of_map_eq_ok hfound
    rw [quotedTail_append hs z] at hr
    cases hr

/-- A text with an error is cut off at the fault: the front is the longest one that has tokens. -/
theorem exists_longest_of_error (h : scan t = .error e) :
    ∃ front c r, t = front ++ c :: r ∧ Text.isBlank c = false ∧ IsLongest HasTokens t front ∧
      next (Text.size front) c r = .error e := by
  obtain ⟨front, ts, c, r, rfl, hblank, hnext, hcut⟩ := exists_front_of_error h
  rw [Nat.zero_add] at hnext hcut
  have hfront : HasTokens front := by
    have hnil := hcut [] List.nil_prefix
    rw [List.append_nil, scanFrom_nil] at hnil
    exact ⟨_, hnil⟩
  refine ⟨front, c, r, rfl, hblank, ⟨List.prefix_append front _, hfront, fun y hy ⟨us, hus⟩ => ?_⟩, hnext⟩
  by_contra hlong
  obtain ⟨w, rfl⟩ := List.prefix_of_prefix_length_le (List.prefix_append front (c :: r)) hy (by omega)
  have hw : w <+: c :: r := (List.prefix_append_right_inj front).1 hy
  cases w with
  | nil => simp at hlong
  | cons d w =>
    -- a longer front with tokens would have one where the fault is
    obtain ⟨vs, hvs, -⟩ := exists_of_map_eq_ok ((hcut (d :: w) hw).symm.trans hus)
    obtain ⟨rfl, hbehind⟩ := List.cons_prefix_cons.1 hw
    cases hfound : next (Text.size front) d w with
    | error e' =>
      rw [scanFrom_error hblank hfound] at hvs
      cases hvs
    | ok found => exact next_ne_ok_of_cut hblank hnext hbehind found hfound

theorem isFault_of_error (h : scan t = .error e) : IsFault t e := by
  obtain ⟨front, c, r, ht, hblank, hfront, hnext⟩ := exists_longest_of_error h
  rcases next_eq_error hblank hnext with ⟨hc, rfl⟩ | ⟨hquote, hr⟩
  · exact .unexpectedChar ht hfront hc
  · refine .quoted ht hfront hquote ?_
    have hone : ∀ quote ∈ quotes, quote.utf8Size = 1 := by decide
    have hsize : Text.size (front ++ [c]) = Text.size front + 1 := by
      rw [Text.size_append, Text.size_cons, Text.size_nil, hone c hquote]
    rw [hsize]
    exact isQuotedFault_of_quotedTail hquote hr

/-- A text has an error if and only if this is what is wrong with it. -/
theorem scan_eq_error_iff : scan t = .error e ↔ IsFault t e := by
  constructor
  · exact isFault_of_error
  · intro hfault
    cases hscan : scan t with
    | error e' => rw [hfault.unique (isFault_of_error hscan)]
    | ok ts => exact absurd ⟨ts, hscan⟩ hfault.not_hasTokens

/-- A text that has no tokens has an error that is right about what is wrong and where: about a character with which no
token begins, a quoted text without an end, or an escape without the code of a character, at the offset of a character
of the text. No number is ever wrong: what is taken for one is the longest numeral there is, and it is read. -/
theorem scan_error_iff_isFault (t : Text) :
    (∀ e, scan t = .error e ↔ IsFault t e) ∧
      (∀ e, scan t = .error e → ∃ n, e.offset? = some n ∧ Text.IsOffset t n) ∧
      (∀ ds, scan t ≠ .error (.invalidNumber ds)) ∧
      ∀ c r, c :: r <:+ t → Text.isDigit c →
        IsLongest IsNumeral (c :: r) (numberLiteral (c :: r)).1 ∧
          ∃ x, Binary64.parse? (numberLiteral (c :: r)).1 = some x := by
  refine ⟨fun e => scan_eq_error_iff, fun e h => (isFault_of_error h).exists_offset, ?_, ?_⟩
  · intro ds h
    obtain ⟨n, hn, -⟩ := (isFault_of_error h).exists_offset
    cases hn
  · intro c r _ hc
    exact ⟨isLongest_numberLiteral hc r, exists_parse?_numberLiteral hc r⟩

/-- Letters of two bytes, a number and an escaped quote in front of an escape with two digits. -/
theorem scan_error_iff_isFault_escape :
    let t := "ä < 1.5e+3x || \"ß\\\"\\u12\"".toList
    let r := ".5e+3x || \"ß\\\"\\u12\"".toList
    scan t = .error (.invalidEscape 22) ∧ '1' :: r <:+ t ∧ Text.isDigit '1' ∧
      IsFault t (.invalidEscape 22) ∧ Text.IsOffset t 22 ∧ IsLongest IsNumeral ('1' :: r) "1.5e+3".toList := by
  intro t r
  have hscan : scan t = .error (.invalidEscape 22) := by decide +kernel
  have hsuffix : '1' :: r <:+ t := ⟨"ä < ".toList, rfl⟩
  have hliteral : (numberLiteral ('1' :: r)).1 = "1.5e+3".toList := by decide
  obtain ⟨hfault, hoffset, -, hnumber⟩ := scan_error_iff_isFault t
  obtain ⟨n, hn, hchar⟩ := hoffset _ hscan
  obtain rfl : 22 = n := Option.some.inj hn
  obtain ⟨hlongest, -⟩ := hnumber '1' r hsuffix rfl
  rw [hliteral] at hlongest
  exact ⟨hscan, hsuffix, rfl, (hfault _).1 hscan, hchar, hlongest⟩

end Token

end Pagewright.Condition
