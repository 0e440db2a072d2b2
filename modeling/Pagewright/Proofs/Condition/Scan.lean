import Mathlib.Data.List.Infix
import Pagewright.Proofs.Condition.Numeral

/-!
# Tokens and what is behind them

A token is as long as it can be, so the text behind it has a say in where it ends. Three things live here:

* what is behind a token can be cut off anywhere, and the token stays what it is (`Token.next_front`). So in a text
  without tokens there is a front that has some (`Token.exists_front_of_error`);
* a condition that is put together from two texts has the tokens of the one and then those of the other, provided that
  no token can reach across. `Token.Seam z` says when nothing in front of `z` can go on into `z`: it does not begin with
  a character of a name or a number, nor with a point, a sign or an equals sign. `Token.scanFrom_append` is the fact for
  whole texts;
* offsets are only there for messages: `Token.scanFrom_toOption` says that they do not change a token.

There is one lemma for each reader before those for a token and for a whole text.
-/

namespace Pagewright.Condition.Token

variable {c d quote : Char} {n m start : Nat} {r s t w z rest literal : Text} {token : Token} {ts : List Token}

/-- Nothing that stands in front of the text can go on into it. -/
def Seam (z : Text) : Prop :=
  ∀ d ∈ z.head?, isNameChar d = false ∧ d ≠ '.' ∧ d ≠ '+' ∧ d ≠ '-' ∧ d ≠ '='

theorem seam_cons : Seam (d :: z) ↔
    isNameChar d = false ∧ d ≠ '.' ∧ d ≠ '+' ∧ d ≠ '-' ∧ d ≠ '=' := by
  simp [Seam]

/-! ## Rows of characters -/

private theorem takeWhile_append_of_head {p : Char → Bool} (h : ∀ d ∈ z.head?, p d = false) (r : Text) :
    (r ++ z).takeWhile p = r.takeWhile p := by
  induction r with
  | nil =>
    cases z with
    | nil => rfl
    | cons d z => simp [h d rfl]
  | cons c r ih =>
    rw [List.cons_append, List.takeWhile_cons, List.takeWhile_cons, ih]

private theorem dropWhile_append_of_head {p : Char → Bool} (h : ∀ d ∈ z.head?, p d = false) (r : Text) :
    (r ++ z).dropWhile p = r.dropWhile p ++ z := by
  induction r with
  | nil =>
    cases z with
    | nil => rfl
    | cons d z => simp [h d rfl]
  | cons c r ih =>
    rw [List.cons_append, List.dropWhile_cons, List.dropWhile_cons, ih]
    split <;> rfl

/-- A digit is a character of names too. -/
theorem isNameChar_of_isDigit (h : Text.isDigit d) : isNameChar d := by
  have hd : 48 ≤ d.toNat ∧ d.toNat ≤ 57 := by simpa [Text.isDigit] using h
  have hnumeric : Text.isNumeric d = true := by
    -- the first range of all
    unfold Text.isNumeric Text.numericRanges Text.inRanges
    rw [if_neg (by omega), decide_eq_true hd.2]
    rfl
  simp [isNameChar, Text.isAlphanumeric, hnumeric]

theorem Seam.not_isDigit (hz : Seam z) : ∀ d ∈ z.head?, Text.isDigit d = false := fun d hd => by
  have := (hz d hd).1
  by_contra hdigit
  rw [isNameChar_of_isDigit (by simpa using hdigit)] at this
  cases this

/-- A row of characters of a kind ends where it did when what follows it is cut off. -/
private theorem takeWhile_front {p : Char → Bool} (hw : w <+: r.dropWhile p) :
    (r.takeWhile p ++ w).takeWhile p = r.takeWhile p ∧ (r.takeWhile p ++ w).dropWhile p = w := by
  have hp : ∀ d ∈ r.takeWhile p, p d := List.all_eq_true.1 List.all_takeWhile
  rw [List.takeWhile_append_of_pos hp, List.dropWhile_append_of_pos hp]
  cases w with
  | nil => exact ⟨List.append_nil _, rfl⟩
  | cons d w =>
    obtain ⟨z, hz⟩ := hw
    have hd := List.head?_dropWhile_not p r
    rw [← hz] at hd
    have hd : p d = false := by simpa using hd
    simp [hd]

/-! ## Numbers -/

/-- No numeral goes on into a seam. -/
theorem Seam.isLongest_append {x : Text} (hz : Seam z) (h : IsLongest IsNumeral t x) :
    IsLongest IsNumeral (t ++ z) x := by
  refine ⟨h.starts.trans (List.prefix_append t z), h.isKind, ?_⟩
  rintro y ⟨behind, hy⟩ hnumeral
  rcases List.append_eq_append_iff.1 hy with ⟨w, ht, -⟩ | ⟨w, rfl, hz'⟩
  · exact h.length_le y ⟨w, ht.symm⟩ hnumeral
  · cases w with
    | nil => exact h.length_le _ (by rw [List.append_nil]) hnumeral
    | cons d w =>
      -- a numeral that reaches into the seam has the first character of it
      subst hz'
      obtain ⟨hname, hpoint, hplus, hminus, -⟩ := seam_cons.1 hz
      rcases hnumeral.of_mem (List.mem_append_right t List.mem_cons_self) with hd | hd
      · rw [isNameChar_of_isDigit hd] at hname
        cases hname
      · simp only [String.reduceToList, List.mem_cons, List.not_mem_nil, or_false] at hd
        rcases hd with rfl | rfl | rfl | rfl | rfl
        · exact absurd rfl hpoint
        · exact absurd hname (by decide)
        · exact absurd hname (by decide)
        · exact absurd rfl hplus
        · exact absurd rfl hminus

theorem Seam.numberLiteral_append (hz : Seam z) (hc : Text.isDigit c) (r : Text) :
    numberLiteral (c :: (r ++ z)) = ((numberLiteral (c :: r)).1, (numberLiteral (c :: r)).2 ++ z) := by
  have hlongest : IsLongest IsNumeral (c :: (r ++ z)) (numberLiteral (c :: r)).1 :=
    hz.isLongest_append (isLongest_numberLiteral hc r)
  apply numberLiteral_of_isLongest hc hlongest
  rw [← List.append_assoc, Token.numberLiteral_append, List.cons_append]

/-- Without what is behind it there is no longer numeral than before. -/
theorem numberLiteral_front (hc : Text.isDigit c) (h : numberLiteral (c :: r) = (literal, rest)) :
    ∃ u, r = u ++ rest ∧ ∀ w, w <+: rest → numberLiteral (c :: (u ++ w)) = (literal, w) := by
  have hlongest : IsLongest IsNumeral (c :: r) literal := by simpa only [h] using isLongest_numberLiteral hc r
  have hread : literal ++ rest = c :: r := by simpa only [h] using Token.numberLiteral_append (c :: r)
  obtain ⟨u, rfl⟩ : ∃ u, literal = c :: u := by
    obtain ⟨d, u, rfl⟩ := List.exists_cons_of_ne_nil hlongest.isKind.ne_nil
    exact ⟨u, by rw [(List.cons.inj hread).1]⟩
  obtain rfl : u ++ rest = r := (List.cons.inj hread).2
  refine ⟨u, rfl, fun w hw => ?_⟩
  have hcut : IsLongest IsNumeral (c :: (u ++ w)) (c :: u) := by
    apply hlongest.of_prefix
    · exact List.cons_prefix_cons.2 ⟨rfl, (List.prefix_append_right_inj u).2 hw⟩
    · exact List.cons_prefix_cons.2 ⟨rfl, List.prefix_append u w⟩
  exact numberLiteral_of_isLongest hc hcut rfl

/-! ## Quoted texts -/

@[simp] theorem quotedTail_quote : quotedTail quote start n (quote :: r) = .ok ([], r) := by
  rw [quotedTail.eq_def]
  exact if_pos rfl

theorem quotedTail_cons (hq : c ≠ quote) (hb : c ≠ '\\') :
    quotedTail quote start n (c :: r) =
      (quotedTail quote start (n + c.utf8Size) r).map fun (s, rest) => (c :: s, rest) := by
  rw [quotedTail.eq_def]
  exact (if_neg hq).trans (if_neg hb)

theorem quotedTail_escape (hq : '\\' ≠ quote) (hu : c ≠ 'u') :
    quotedTail quote start n ('\\' :: c :: r) =
      (quotedTail quote start (n + 1 + c.utf8Size) r).map fun (s, rest) => (escaped c :: s, rest) := by
  rw [quotedTail.eq_def]
  simp [hq, hu]

theorem quotedTail_unicode {a b d e x : Char} (hq : '\\' ≠ quote)
    (hx : charOfHex? [a, b, d, e] = some x) :
    quotedTail quote start n ('\\' :: 'u' :: a :: b :: d :: e :: r) =
      (quotedTail quote start (n + 6) r).map fun (s, rest) => (x :: s, rest) := by
  rw [quotedTail.eq_def]
  simp [hq, hx]

theorem exists_of_map_eq_ok {ε α β : Type} {f : α → β} {x : Except ε α} {b : β}
    (h : x.map f = .ok b) : ∃ a, x = .ok a ∧ f a = b := by
  cases x with
  | error e => cases h
  | ok a => exact ⟨a, rfl, Except.ok.inj h⟩

theorem eq_error_of_map {ε α β : Type} {f : α → β} {x : Except ε α} {e : ε} (h : x.map f = .error e) :
    x = .error e := by
  cases x with
  | error e' => exact congrArg Except.error (Except.error.inj h)
  | ok a => cases h

/-- A quoted text that ends is read up to its closing quote, whatever follows. -/
theorem quotedTail_front (h : quotedTail quote start n r = .ok (s, rest)) :
    ∃ u, r = u ++ rest ∧ ∀ w, quotedTail quote start n (u ++ w) = .ok (s, w) := by
  fun_induction quotedTail quote start n r generalizing s rest with
  | case1 n => cases h
  | case2 n r =>
    cases h
    exact ⟨[quote], rfl, fun w => quotedTail_quote⟩
  | case3 n hq => cases h
  | case4 n a b d e r hx hq => cases h
  | case5 n a b d e r x hx hq ih =>
    obtain ⟨⟨t, rest'⟩, ht, he⟩ := exists_of_map_eq_ok h
    cases he
    obtain ⟨u, rfl, hu⟩ := ih ht
    refine ⟨'\\' :: 'u' :: a :: b :: d :: e :: u, rfl, fun w => ?_⟩
    simp only [List.cons_append]
    rw [quotedTail_unicode hq hx, hu w]
    rfl
  | case6 n r hq _ => cases h
  | case7 n e r _ hu hq ih =>
    obtain ⟨⟨t, rest'⟩, ht, he⟩ := exists_of_map_eq_ok h
    cases he
    obtain ⟨u, rfl, hread⟩ := ih ht
    refine ⟨'\\' :: e :: u, rfl, fun w => ?_⟩
    simp only [List.cons_append]
    rw [quotedTail_escape hq hu, hread w]
    rfl
  | case8 n c r hq hb ih =>
    obtain ⟨⟨t, rest'⟩, ht, he⟩ := exists_of_map_eq_ok h
    cases he
    obtain ⟨u, rfl, hread⟩ := ih ht
    refine ⟨c :: u, rfl, fun w => ?_⟩
    rw [List.cons_append, quotedTail_cons hq hb, hread w]
    rfl

theorem quotedTail_append (h : quotedTail quote start n r = .ok (s, rest)) (z : Text) :
    quotedTail quote start n (r ++ z) = .ok (s, rest ++ z) := by
  obtain ⟨u, rfl, hread⟩ := quotedTail_front h
  rw [List.append_assoc]
  exact hread (rest ++ z)

private theorem toOption_map {ε α β : Type} (f : α → β) (x : Except ε α) :
    (x.map f).toOption = x.toOption.map f := by
  cases x <;> rfl

theorem quotedTail_toOption (start' m : Nat) :
    (quotedTail quote start n r).toOption = (quotedTail quote start' m r).toOption := by
  fun_induction quotedTail quote start n r generalizing m with
  | case1 n => rfl
  | case2 n r => rw [quotedTail_quote]
  | case3 n hq =>
    rw [quotedTail.eq_def]
    simp [hq, Except.toOption]
  | case4 n a b d e r hx hq =>
    rw [quotedTail.eq_def]
    simp [hq, hx, Except.toOption]
  | case5 n a b d e r x hx hq ih => rw [quotedTail_unicode hq hx, toOption_map, toOption_map, ih]
  | case6 n r hq hshort =>
    rcases r with _ | ⟨a, _ | ⟨b, _ | ⟨d, _ | ⟨e, r⟩⟩⟩⟩
    case cons.cons.cons.cons => exact (hshort a b d e r rfl rfl).elim
    all_goals
      rw [quotedTail.eq_def]
      simp [hq, Except.toOption]
  | case7 n e r _ hu hq ih => rw [quotedTail_escape hq hu, toOption_map, toOption_map, ih]
  | case8 n c r hq hb ih => rw [quotedTail_cons hq hb, toOption_map, toOption_map, ih]

/-! ## Signs -/

theorem mem_of_sign? (h : sign? c r = some (token, rest)) :
    c ∈ "()[]\x7b\x7d,:.-!=<>&|".toList := by
  by_contra hc
  simp at hc
  unfold sign? at h
  simp [hc] at h

private theorem ne_equals (hrest : ∀ r', rest = '=' :: r' → False) (hw : w.head? = some '=' → rest.head? = some '=') :
    ∀ w', w = '=' :: w' → False := by
  rintro w' rfl
  obtain ⟨r', hr⟩ := List.head?_eq_some_iff.1 (hw rfl)
  exact hrest r' hr

/-- A sign is what it is as long as no equals sign comes behind it that was not there. -/
theorem sign?_front (h : sign? c r = some (token, rest)) :
    ∃ u, r = u ++ rest ∧ ∀ w, (w.head? = some '=' → rest.head? = some '=') → sign? c (u ++ w) = some (token, w) := by
  have hc := mem_of_sign? h
  simp at hc
  rcases hc with rfl | rfl | rfl | rfl | rfl | rfl | rfl | rfl | rfl | rfl | rfl | rfl | rfl | rfl | rfl | rfl
  iterate 10
    · cases h
      exact ⟨[], rfl, fun w _ => rfl⟩
  all_goals
    unfold sign? at h ⊢
    simp only [Char.reduceEq, ↓reduceIte] at h ⊢
  -- `!` and `=` look at two characters
  · split at h
    · cases h
      exact ⟨['=', '='], rfl, fun w _ => rfl⟩
    · next r' hr =>
      cases h
      refine ⟨['='], rfl, fun w hw => ?_⟩
      have hw := ne_equals hr hw
      rw [List.singleton_append]
      split
      · next heq => exact (hw _ (List.cons.inj heq).2).elim
      · next heq =>
        cases (List.cons.inj heq).2
        rfl
      · next hne => exact (hne _ rfl).elim
    · next hr =>
      cases h
      refine ⟨[], rfl, fun w hw => ?_⟩
      have hw := ne_equals hr hw
      rw [List.nil_append]
      split
      · exact (hw _ rfl).elim
      · exact (hw _ rfl).elim
      · rfl
  · split at h
    · cases h
      exact ⟨['=', '='], rfl, fun w _ => rfl⟩
    · next r' hr =>
      cases h
      refine ⟨['='], rfl, fun w hw => ?_⟩
      have hw := ne_equals hr hw
      rw [List.singleton_append]
      split
      · next heq => exact (hw _ (List.cons.inj heq).2).elim
      · next heq =>
        cases (List.cons.inj heq).2
        rfl
      · next hne => exact (hne _ rfl).elim
    · cases h
  -- `<` and `>` look at one
  iterate 2
    · split at h
      · cases h
        exact ⟨['='], rfl, fun w _ => rfl⟩
      · next hr =>
        cases h
        refine ⟨[], rfl, fun w hw => ?_⟩
        have hw := ne_equals hr hw
        rw [List.nil_append]
        split
        · exact (hw _ rfl).elim
        · rfl
  -- `&` and `|` are no signs alone
  · split at h
    · cases h
      exact ⟨['&'], rfl, fun w _ => rfl⟩
    · cases h
  · split at h
    · cases h
      exact ⟨['|'], rfl, fun w _ => rfl⟩
    · cases h

theorem sign?_append (h : sign? c r = some (token, rest)) (hz : Seam z) : sign? c (r ++ z) = some (token, rest ++ z) := by
  obtain ⟨u, rfl, hread⟩ := sign?_front h
  rw [List.append_assoc]
  refine hread (rest ++ z) fun hhead => ?_
  cases rest with
  | nil => exact absurd rfl (hz '=' hhead).2.2.2.2
  | cons d rest => exact hhead

/-! ## One token -/

/-- What is behind a token can be cut off anywhere. -/
theorem next_front (h : next n c r = .ok (token, rest)) :
    ∃ u, r = u ++ rest ∧ ∀ w, w <+: rest → next n c (u ++ w) = .ok (token, w) := by
  unfold next at h ⊢
  split at h
  · next hc =>
    dsimp only at h
    split at h
    · next x hx =>
      cases h
      obtain ⟨u, hu, hread⟩ := numberLiteral_front hc (Prod.mk.eta (p := numberLiteral (c :: r))).symm
      refine ⟨u, hu, fun w hw => ?_⟩
      simp only [hc, ↓reduceIte, hread w hw, hx]
    · cases h
  · next hc =>
    split at h
    · next hq =>
      obtain ⟨⟨t, rest'⟩, ht, he⟩ := exists_of_map_eq_ok h
      cases he
      obtain ⟨u, hu, hread⟩ := quotedTail_front ht
      refine ⟨u, hu, fun w _ => ?_⟩
      rw [if_neg hc, if_pos hq, hread w]
      rfl
    · next hq =>
      split at h
      · next hname =>
        cases h
        refine ⟨r.takeWhile isNameChar, List.takeWhile_append_dropWhile.symm, fun w hw => ?_⟩
        obtain ⟨htake, hdrop⟩ := takeWhile_front hw
        rw [if_neg hc, if_neg hq, if_pos hname, htake, hdrop]
      · next hname =>
        split at h
        · next found hs =>
          cases h
          obtain ⟨u, hu, hread⟩ := sign?_front hs
          refine ⟨u, hu, fun w hw => ?_⟩
          -- what begins the part also begins the whole
          have hequals : w.head? = some '=' → rest.head? = some '=' := fun hhead => by
            obtain ⟨z, rfl⟩ := hw
            rw [List.head?_append, hhead]
            rfl
          rw [if_neg hc, if_neg hq, if_neg hname, hread w hequals]
        · cases h

theorem next_suffix (h : next n c r = .ok (token, rest)) : rest <:+ r := by
  obtain ⟨u, rfl, -⟩ := next_front h
  exact List.suffix_append u rest

theorem next_append (h : next n c r = .ok (token, rest)) (hz : Seam z) :
    next n c (r ++ z) = .ok (token, rest ++ z) := by
  unfold next at h ⊢
  split at h
  · next hc =>
    rw [if_pos hc, hz.numberLiteral_append hc]
    dsimp only at h ⊢
    cases hx : Binary64.parse? (numberLiteral (c :: r)).1 with
    | none =>
      rw [hx] at h
      cases h
    | some x =>
      rw [hx] at h
      cases h
      rfl
  · next hc =>
    rw [if_neg hc]
    split at h
    · next hq =>
      obtain ⟨⟨t, rest'⟩, ht, he⟩ := exists_of_map_eq_ok h
      cases he
      rw [if_pos hq, quotedTail_append ht]
      rfl
    · next hq =>
      rw [if_neg hq]
      split at h
      · next hname =>
        cases h
        have hz' : ∀ d ∈ z.head?, isNameChar d = false := fun d hd => (hz d hd).1
        rw [if_pos hname, takeWhile_append_of_head hz', dropWhile_append_of_head hz']
      · next hname =>
        rw [if_neg hname]
        split at h
        · next found hs =>
          cases h
          rw [sign?_append hs hz]
        · cases h

/-- A token does not depend on where it stands. -/
theorem next_toOption (m : Nat) : (next n c r).toOption = (next m c r).toOption := by
  unfold next
  split
  · rfl
  · split
    · rw [toOption_map, toOption_map, quotedTail_toOption m (m + 1)]
    · split
      · rfl
      · split <;> rfl

/-! ## Whole texts -/

@[simp] theorem scanFrom_nil : scanFrom n [] = .ok [] := by
  rw [scanFrom.eq_def]

theorem scanFrom_blank (hc : Text.isBlank c) : scanFrom n (c :: r) = scanFrom (n + c.utf8Size) r := by
  rw [scanFrom.eq_def]
  exact if_pos hc

theorem scanFrom_error {e : ConditionError} (hc : Text.isBlank c = false) (h : next n c r = .error e) :
    scanFrom n (c :: r) = .error e := by
  rw [scanFrom.eq_def]
  dsimp only
  rw [if_neg (by simp [hc]), h]

theorem scanFrom_next (hc : Text.isBlank c = false) (h : next n c r = .ok (token, rest)) :
    scanFrom n (c :: r) =
      (scanFrom (n + Text.size (c :: r) - Text.size rest) rest).map (token :: ·) := by
  rw [scanFrom.eq_def]
  dsimp only
  rw [if_neg (by simp [hc]), h]
  exact if_pos (next_suffix h).length_le

/-- A condition in two parts with a seam between them has the tokens of the one and then those of the
other. -/
theorem scanFrom_append (hz : Seam z) (h : scanFrom n t = .ok ts) :
    scanFrom n (t ++ z) = (scanFrom (n + Text.size t) z).map (ts ++ ·) := by
  fun_induction scanFrom n t generalizing ts with
  | case1 n =>
    cases h
    rw [List.nil_append, Text.size_nil, Nat.add_zero]
    cases scanFrom n z <;> rfl
  | case2 n c r hc ih =>
    rw [List.cons_append, scanFrom_blank hc, ih h, Text.size_cons, Nat.add_assoc]
  | case3 n c r hc e he => cases h
  | case4 n c r hc token rest hn hlen ih =>
    obtain ⟨us, hus, he⟩ := exists_of_map_eq_ok h
    cases he
    have hread : n + Text.size (c :: (r ++ z)) - Text.size (rest ++ z) =
        n + Text.size (c :: r) - Text.size rest := by
      simp only [Text.size_cons, Text.size_append]
      omega
    have hsize : n + Text.size (c :: r) - Text.size rest + Text.size rest =
        n + Text.size (c :: r) := by
      obtain ⟨u, rfl⟩ := next_suffix hn
      simp only [Text.size_cons, Text.size_append]
      omega
    rw [List.cons_append, scanFrom_next (by simpa using hc) (next_append hn hz), hread, ih hus, hsize]
    cases scanFrom (n + Text.size (c :: r)) z <;> rfl
  | case5 n c r hc token rest hn hlen => exact (hlen (next_suffix hn).length_le).elim

/-- The tokens of a text do not depend on where it stands. -/
theorem scanFrom_toOption (n m : Nat) (t : Text) :
    (scanFrom n t).toOption = (scanFrom m t).toOption := by
  fun_induction scanFrom n t generalizing m with
  | case1 n => rw [scanFrom_nil]
  | case2 n c r hc ih => rw [scanFrom_blank hc, ih]
  | case3 n c r hc e he =>
    have h := next_toOption (n := n) (c := c) (r := r) m
    rw [he] at h
    cases hm : next m c r with
    | ok found =>
      rw [hm] at h
      cases h
    | error e' =>
      rw [scanFrom_error (by simpa using hc) hm]
      rfl
  | case4 n c r hc token rest hn hlen ih =>
    have h := next_toOption (n := n) (c := c) (r := r) m
    rw [hn] at h
    cases hm : next m c r with
    | ok found =>
      rw [hm] at h
      cases h
      rw [scanFrom_next (by simpa using hc) hm, toOption_map, toOption_map, ih]
    | error e' =>
      rw [hm] at h
      cases h
  | case5 n c r hc token rest hn hlen => exact (hlen (next_suffix hn).length_le).elim

theorem scanFrom_eq_ok (h : scan t = .ok ts) (n : Nat) : scanFrom n t = .ok ts := by
  have htokens := scanFrom_toOption n 0 t
  rw [show scanFrom 0 t = .ok ts from h] at htokens
  cases hn : scanFrom n t with
  | ok us =>
    rw [hn] at htokens
    cases htokens
    rfl
  | error e =>
    rw [hn] at htokens
    cases htokens

theorem scanFrom_eq_error {e : ConditionError} (h : scan t = .error e) (n : Nat) :
    ∃ e', scanFrom n t = .error e' := by
  have htokens := scanFrom_toOption n 0 t
  rw [show scanFrom 0 t = .error e from h] at htokens
  cases hn : scanFrom n t with
  | ok us =>
    rw [hn] at htokens
    cases htokens
  | error e' => exact ⟨e', rfl⟩

/-- A text without tokens has a front with tokens, which stay the same when the text is cut off behind it, and behind
the front no token begins. -/
theorem exists_front_of_error {e : ConditionError} (h : scanFrom n t = .error e) :
    ∃ front ts c r, t = front ++ c :: r ∧ Text.isBlank c = false ∧ next (n + Text.size front) c r = .error e ∧
      ∀ w, w <+: c :: r → scanFrom n (front ++ w) = (scanFrom (n + Text.size front) w).map (ts ++ ·) := by
  fun_induction scanFrom n t with
  | case1 n => cases h
  | case2 n c r hc ih =>
    obtain ⟨front, ts, d, r', rfl, hd, hnext, hfront⟩ := ih h
    refine ⟨c :: front, ts, d, r', rfl, hd, ?_, fun w hw => ?_⟩
    · rw [Text.size_cons, ← Nat.add_assoc]
      exact hnext
    · rw [List.cons_append, scanFrom_blank hc, hfront w hw, Text.size_cons, Nat.add_assoc]
  | case3 n c r hc e' he =>
    cases h
    refine ⟨[], [], c, r, rfl, by simpa using hc, he, fun w _ => ?_⟩
    rw [List.nil_append, Text.size_nil, Nat.add_zero]
    cases scanFrom n w <;> rfl
  | case4 n c r hc token rest hn hlen ih =>
    obtain ⟨front, ts, d, r', rfl, hd, hnext, hfront⟩ := ih (eq_error_of_map h)
    obtain ⟨u, rfl, hread⟩ := next_front hn
    have hoffset : ∀ z, n + Text.size (c :: (u ++ z)) - Text.size z = n + Text.size (c :: u) := by
      intro z
      rw [← List.cons_append, Text.size_append]
      omega
    have hsize : n + Text.size (c :: u) + Text.size front = n + Text.size (c :: (u ++ front)) := by
      rw [← List.cons_append, Text.size_append, Nat.add_assoc]
    rw [hoffset, hsize] at hnext
    refine ⟨c :: (u ++ front), token :: ts, d, r', by simp, hd, hnext, fun w hw => ?_⟩
    have hbehind := hfront w hw
    rw [hoffset, hsize] at hbehind
    have htoken := hread (front ++ w) ((List.prefix_append_right_inj front).2 hw)
    rw [List.cons_append, List.append_assoc, scanFrom_next (by simpa using hc) htoken, hoffset, hbehind]
    cases scanFrom (n + Text.size (c :: (u ++ front))) w <;> rfl
  | case5 n c r hc token rest hn hlen => exact (hlen (next_suffix hn).length_le).elim

end Pagewright.Condition.Token
