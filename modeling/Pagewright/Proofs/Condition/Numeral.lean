import Pagewright.Condition.Token
import Pagewright.Proofs.Binary64.Decimal

/-!
# Numerals

A number is written as digits, a point with digits behind it, and a letter with digits behind it, where the last two may
be missing. Three things live here:

* the forms of a numeral and of its parts, said without the scanner (`IsNumeral`);
* what the scanner takes for a number is the longest numeral at the start of the text (`Token.isLongest_numberLiteral`).
  Each part is shown to be a part of its form, and no part of that form to be longer;
* every numeral is read as a number (`IsNumeral.exists_parse?`).
-/

namespace Pagewright.Condition

variable {c d e : Char} {r s t x y ds : Text}

/-! ## Forms -/

/-- The longest text of a kind at the start of a text. -/
structure IsLongest (kind : Text → Prop) (t x : Text) : Prop where
  starts : x <+: t
  isKind : kind x
  length_le : ∀ y, y <+: t → kind y → y.length ≤ x.length

theorem IsLongest.unique {kind : Text → Prop} (hx : IsLongest kind t x) (hy : IsLongest kind t y) : x = y :=
  (List.prefix_of_prefix_length_le hx.starts hy.starts (hy.length_le x hx.starts hx.isKind)).eq_of_length
    (Nat.le_antisymm (hy.length_le x hx.starts hx.isKind) (hx.length_le y hy.starts hy.isKind))

/-- What follows it, a character and a rest, is one and the same. -/
theorem IsLongest.split_unique {kind : Text → Prop} {c' : Char} {r' : Text} (hx : IsLongest kind t x)
    (hy : IsLongest kind t y) (h : t = x ++ c :: r) (h' : t = y ++ c' :: r') : c = c' ∧ r = r' := by
  obtain rfl := hx.unique hy
  exact List.cons.inj (List.append_cancel_left (h.symm.trans h'))

/-- It stays the longest when the text is cut off behind it. -/
theorem IsLongest.of_prefix {kind : Text → Prop} (h : IsLongest kind t x) (hs : s <+: t) (hx : x <+: s) :
    IsLongest kind s x :=
  ⟨hx, h.isKind, fun y hy hkind => h.length_le y (hy.trans hs) hkind⟩

/-- A row of digits, of at least one. -/
def IsDigits (ds : Text) : Prop := ds ≠ [] ∧ ∀ c ∈ ds, Text.isDigit c

/-- A point with digits behind it, or nothing. -/
inductive IsFraction : Text → Prop
  | absent : IsFraction []
  | present {ds : Text} (h : IsDigits ds) : IsFraction ('.' :: ds)

/-- A letter with digits behind it and perhaps a sign between them, or nothing. -/
inductive IsExponent : Text → Prop
  | absent : IsExponent []
  | present {e : Char} {sign ds : Text} (he : e = 'e' ∨ e = 'E') (hsign : sign ∈ [[], ['+'], ['-']])
    (h : IsDigits ds) : IsExponent (e :: (sign ++ ds))

/-- Digits, a fraction and an exponent. -/
inductive IsNumeral : Text → Prop
  | intro {whole fraction exponent : Text} (hwhole : IsDigits whole) (hfraction : IsFraction fraction)
    (hexponent : IsExponent exponent) : IsNumeral (whole ++ (fraction ++ exponent))

theorem IsDigits.exists_cons (h : IsDigits ds) : ∃ d ds', ds = d :: ds' ∧ Text.isDigit d := by
  obtain ⟨d, ds', rfl⟩ := List.exists_cons_of_ne_nil h.1
  exact ⟨d, ds', rfl, h.2 d List.mem_cons_self⟩

theorem IsNumeral.ne_nil (h : IsNumeral t) : t ≠ [] := by
  obtain ⟨hwhole, -, -⟩ := h
  exact List.append_ne_nil_of_left_ne_nil hwhole.1 _

/-- The characters of a numeral. -/
theorem IsNumeral.of_mem (h : IsNumeral t) (hc : c ∈ t) : Text.isDigit c ∨ c ∈ ".eE+-".toList := by
  obtain ⟨hwhole, hfraction, hexponent⟩ := h
  rcases List.mem_append.1 hc with hc | hc
  · exact Or.inl (hwhole.2 c hc)
  rcases List.mem_append.1 hc with hc | hc
  · cases hfraction with
    | absent => cases hc
    | present hds =>
      rcases List.mem_cons.1 hc with rfl | hc
      · exact Or.inr (by decide)
      · exact Or.inl (hds.2 c hc)
  · cases hexponent with
    | absent => cases hc
    | present he hsign hds =>
      simp only [List.mem_cons, List.not_mem_nil, or_false] at hsign
      simp only [List.mem_cons, List.mem_append] at hc
      rcases hc with rfl | hc | hc
      · rcases he with rfl | rfl
        · exact Or.inr (by decide)
        · exact Or.inr (by decide)
      · rcases hsign with rfl | rfl | rfl
        · cases hc
        · exact Or.inr (by rw [List.mem_singleton.1 hc]; decide)
        · exact Or.inr (by rw [List.mem_singleton.1 hc]; decide)
      · exact Or.inl (hds.2 c hc)

theorem IsFraction.not_isDigit (h : IsFraction x) (hy : ∀ c ∈ y.head?, Text.isDigit c = false) :
    ∀ c ∈ (x ++ y).head?, Text.isDigit c = false := by
  cases h with
  | absent => exact hy
  | present _ =>
    rintro c ⟨⟩
    rfl

theorem IsExponent.not_isDigit (h : IsExponent x) : ∀ c ∈ x.head?, Text.isDigit c = false := by
  cases h with
  | absent => simp
  | present he _ _ =>
    rintro c ⟨⟩
    rcases he with rfl | rfl <;> rfl

namespace Token

/-! ## Digits at the start -/

theorem isDigits_takeWhile (h : startsWithDigit r) : IsDigits (r.takeWhile Text.isDigit) := by
  cases r with
  | nil => cases h
  | cons c r =>
    have hc : Text.isDigit c = true := h
    refine ⟨?_, List.all_eq_true.1 List.all_takeWhile⟩
    rw [List.takeWhile_cons_of_pos hc]
    exact List.cons_ne_nil _ _

theorem startsWithDigit_append (h : IsDigits ds) (r : Text) : startsWithDigit (ds ++ r) := by
  obtain ⟨d, ds', rfl, hd⟩ := h.exists_cons
  exact hd

/-- Digits at the start of a text are all of them, if something else follows. -/
theorem eq_takeWhile_or (hds : ∀ c ∈ ds, Text.isDigit c) (hx : ∀ c ∈ x.head?, Text.isDigit c = false)
    (h : ds ++ x <+: t) :
    x = [] ∧ ds.length ≤ (t.takeWhile Text.isDigit).length ∨
      ds = t.takeWhile Text.isDigit ∧ x <+: t.dropWhile Text.isDigit := by
  obtain ⟨z, rfl⟩ := h
  cases x with
  | nil =>
    refine Or.inl ⟨rfl, ?_⟩
    rw [List.append_nil, List.takeWhile_append_of_pos hds, List.length_append]
    exact Nat.le_add_right _ _
  | cons c x =>
    obtain ⟨htake, hdrop⟩ := Binary64.Literal.span_digits (r := c :: (x ++ z)) hds hx
    rw [List.append_assoc]
    exact Or.inr ⟨htake.symm, z, hdrop.symm⟩

/-! ## Exponents -/

theorem exponentPart_of_digit (he : e = 'e' ∨ e = 'E') (h : startsWithDigit r) :
    exponentPart (e :: r) = (e :: r.takeWhile Text.isDigit, r.dropWhile Text.isDigit) := by
  cases r with
  | nil => cases h
  | cons d r =>
    have hd : Text.isDigit d = true := h
    have hsign : ¬ (d = '+' ∨ d = '-') := by
      rintro (rfl | rfl) <;> cases hd
    simp [exponentPart, he, hsign, hd]

theorem exponentPart_of_sign (he : e = 'e' ∨ e = 'E') (hd : d = '+' ∨ d = '-') (h : startsWithDigit r) :
    exponentPart (e :: d :: r) = (e :: d :: r.takeWhile Text.isDigit, r.dropWhile Text.isDigit) := by
  simp [exponentPart, he, hd, h]

/-- What is taken for an exponent is one, and nothing is lost. -/
theorem exponentPart_spec (r : Text) :
    IsExponent (exponentPart r).1 ∧ (exponentPart r).1 ++ (exponentPart r).2 = r := by
  unfold exponentPart
  split
  · exact ⟨.absent, rfl⟩
  · next e r =>
    split
    · next he =>
      have he : e = 'e' ∨ e = 'E' := by simpa using he
      split
      · next d r =>
        split
        · next hd =>
          obtain ⟨hd, hdigit⟩ : (d = '+' ∨ d = '-') ∧ startsWithDigit r = true := by simpa using hd
          have hsign : [d] ∈ [[], ['+'], ['-']] := by simpa using hd
          exact ⟨.present he hsign (isDigits_takeWhile hdigit), by simp⟩
        · split
          · next hdigit =>
            have hstart : startsWithDigit (d :: r) = true := hdigit
            have hsign : [] ∈ [[], ['+'], ['-']] := List.mem_cons_self
            exact ⟨.present he hsign (isDigits_takeWhile hstart), by simp⟩
          · exact ⟨.absent, rfl⟩
      · exact ⟨.absent, rfl⟩
    · exact ⟨.absent, rfl⟩

theorem length_le_exponentPart (hx : IsExponent x) (h : x <+: t) : x.length ≤ (exponentPart t).1.length := by
  cases hx with
  | absent => exact Nat.zero_le _
  | @present e sign ds he hsign hds =>
    obtain ⟨z, rfl⟩ := h
    have hstart : startsWithDigit (ds ++ z) = true := startsWithDigit_append hds z
    have hlength : ds.length ≤ ((ds ++ z).takeWhile Text.isDigit).length := by
      rw [List.takeWhile_append_of_pos hds.2, List.length_append]
      exact Nat.le_add_right _ _
    simp only [List.mem_cons, List.not_mem_nil, or_false] at hsign
    rcases hsign with rfl | rfl | rfl
    · rw [List.nil_append, List.cons_append, exponentPart_of_digit he hstart]
      exact Nat.succ_le_succ hlength
    · show ('+' :: ds).length + 1 ≤ (exponentPart (e :: '+' :: (ds ++ z))).1.length
      rw [exponentPart_of_sign he (Or.inl rfl) hstart]
      exact Nat.succ_le_succ (Nat.succ_le_succ hlength)
    · show ('-' :: ds).length + 1 ≤ (exponentPart (e :: '-' :: (ds ++ z))).1.length
      rw [exponentPart_of_sign he (Or.inr rfl) hstart]
      exact Nat.succ_le_succ (Nat.succ_le_succ hlength)

/-! ## Fractions -/

/-- What is taken for a fraction is one, and nothing is lost. -/
theorem fractionPart_spec (r : Text) :
    IsFraction (fractionPart r).1 ∧ (fractionPart r).1 ++ (fractionPart r).2 = r := by
  unfold fractionPart
  split
  · split
    · next hstart => exact ⟨.present (isDigits_takeWhile hstart), by simp⟩
    · exact ⟨.absent, rfl⟩
  · exact ⟨.absent, rfl⟩

theorem length_le_fractionPart (hx : IsFraction x) (hy : IsExponent y) (h : x ++ y <+: t) :
    (x ++ y).length ≤ (fractionPart t).1.length + (exponentPart (fractionPart t).2).1.length := by
  cases hx with
  | absent =>
    cases hy with
    | absent => exact Nat.zero_le _
    | @present e sign ds he hsign hds =>
      -- an exponent does not begin with a point, so no fraction is taken in front of it
      have hpart : fractionPart t = ([], t) := by
        obtain ⟨z, rfl⟩ := h
        have hpoint : e ≠ '.' := by
          rintro rfl
          rcases he with he | he <;> cases he
        simp [fractionPart, hpoint]
      rw [hpart]
      exact (length_le_exponentPart (.present he hsign hds) h).trans (Nat.le_add_left _ _)
  | @present ds hds =>
    obtain ⟨z, rfl⟩ := h
    have hstart : startsWithDigit (ds ++ y ++ z) = true := by
      rw [List.append_assoc]
      exact startsWithDigit_append hds _
    have hpart : fractionPart ('.' :: ds ++ y ++ z) =
        ('.' :: (ds ++ y ++ z).takeWhile Text.isDigit, (ds ++ y ++ z).dropWhile Text.isDigit) := if_pos hstart
    rw [hpart]
    dsimp only
    rcases eq_takeWhile_or hds.2 hy.not_isDigit (List.prefix_append (ds ++ y) z) with ⟨rfl, hlength⟩ | ⟨hds, hrest⟩
    · rw [List.append_nil, List.length_cons, List.length_cons]
      omega
    · have hlength := length_le_exponentPart hy hrest
      rw [← hds, List.length_append, List.length_cons]
      omega

/-! ## Numerals -/

theorem numberLiteral_append (t : Text) : (numberLiteral t).1 ++ (numberLiteral t).2 = t := by
  have hfraction := (fractionPart_spec (t.dropWhile Text.isDigit)).2
  have hexponent := (exponentPart_spec (fractionPart (t.dropWhile Text.isDigit)).2).2
  show t.takeWhile Text.isDigit ++ (fractionPart (t.dropWhile Text.isDigit)).1 ++
    (exponentPart (fractionPart (t.dropWhile Text.isDigit)).2).1 ++
    (exponentPart (fractionPart (t.dropWhile Text.isDigit)).2).2 = t
  rw [List.append_assoc, hexponent, List.append_assoc, hfraction, List.takeWhile_append_dropWhile]

/-- What is taken for a number is the longest numeral at the start of the text. -/
theorem isLongest_numberLiteral (hc : Text.isDigit c) (r : Text) :
    IsLongest IsNumeral (c :: r) (numberLiteral (c :: r)).1 := by
  have hstart : startsWithDigit (c :: r) = true := hc
  have hliteral : (numberLiteral (c :: r)).1 = (c :: r).takeWhile Text.isDigit ++
      ((fractionPart ((c :: r).dropWhile Text.isDigit)).1 ++
        (exponentPart (fractionPart ((c :: r).dropWhile Text.isDigit)).2).1) := List.append_assoc _ _ _
  refine ⟨⟨_, numberLiteral_append (c :: r)⟩, ?_, ?_⟩
  · rw [hliteral]
    exact .intro (isDigits_takeWhile hstart) (fractionPart_spec _).1 (exponentPart_spec _).1
  · rintro y hy ⟨hwhole, hfraction, hexponent⟩
    simp only [hliteral, List.length_append]
    have hbehind := hfraction.not_isDigit hexponent.not_isDigit
    rcases eq_takeWhile_or hwhole.2 hbehind hy with ⟨hnil, hlength⟩ | ⟨hwhole, hrest⟩
    · obtain ⟨rfl, rfl⟩ := List.append_eq_nil_iff.1 hnil
      rw [List.length_nil]
      omega
    · have hlength := length_le_fractionPart hfraction hexponent hrest
      rw [List.length_append] at hlength
      rw [← hwhole]
      omega

theorem numberLiteral_of_isLongest (hc : Text.isDigit c) (h : IsLongest IsNumeral (c :: t) x)
    (ht : c :: t = x ++ r) : numberLiteral (c :: t) = (x, r) := by
  have hliteral := (isLongest_numberLiteral hc t).unique h
  have hread := numberLiteral_append (c :: t)
  rw [hliteral] at hread
  exact Prod.ext hliteral (List.append_cancel_left (hread.trans ht))

end Token

/-! ## Numbers -/

theorem IsExponent.exists_exponentPart? (h : IsExponent x) : ∃ n, Binary64.exponentPart? x = some n := by
  cases h with
  | absent => exact ⟨0, rfl⟩
  | @present e sign ds he hsign hds =>
    have hempty : ds.isEmpty = false := List.isEmpty_eq_false_iff.2 hds.1
    have hall : ds.all Text.isDigit = true := List.all_eq_true.2 hds.2
    -- in each case the digits are what is left behind the sign
    have hread : ∃ negative, Binary64.sign (sign ++ ds) = (negative, ds) := by
      simp only [List.mem_cons, List.not_mem_nil, or_false] at hsign
      rcases hsign with rfl | rfl | rfl
      · obtain ⟨d, ds', rfl, hd⟩ := hds.exists_cons
        exact ⟨false, Binary64.Literal.sign_digit hd⟩
      · exact ⟨false, rfl⟩
      · exact ⟨true, rfl⟩
    obtain ⟨negative, hread⟩ := hread
    refine ⟨Binary64.exponentValue negative ds, ?_⟩
    simp [Binary64.exponentPart?, he, hread, hempty, hall]

/-- Every numeral is read as a number. -/
theorem IsNumeral.exists_parse? (h : IsNumeral t) : ∃ v, Binary64.parse? t = some v := by
  obtain @⟨whole, fraction, exponent, hwhole, hfraction, hexponent⟩ := h
  obtain ⟨n, hn⟩ := hexponent.exists_exponentPart?
  have hsign : Binary64.sign (whole ++ (fraction ++ exponent)) = (false, whole ++ (fraction ++ exponent)) := by
    obtain ⟨d, ds, rfl, hd⟩ := hwhole.exists_cons
    exact Binary64.Literal.sign_digit hd
  obtain ⟨htake, hdrop⟩ := Binary64.Literal.span_digits hwhole.2 (hfraction.not_isDigit hexponent.not_isDigit)
  have hempty : whole.isEmpty = false := List.isEmpty_eq_false_iff.2 hwhole.1
  unfold Binary64.parse?
  rw [hsign]
  dsimp only
  rw [htake, hdrop, hempty, Bool.false_and]
  cases hfraction with
  | absent =>
    -- an exponent is not taken for a fraction
    cases hexponent with
    | absent => exact ⟨_, rfl⟩
    | @present e sign ds he hsign hds =>
      have hpoint : e ≠ '.' := by
        rintro rfl
        rcases he with he | he <;> cases he
      simp [hpoint, hn]
  | @present ds hds =>
    obtain ⟨htake, hdrop⟩ := Binary64.Literal.span_digits hds.2 hexponent.not_isDigit
    simp [htake, hdrop, hn]

end Pagewright.Condition
