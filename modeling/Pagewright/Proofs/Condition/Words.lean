import Pagewright.Proofs.Condition.Laws

/-!
# Words and numbers

A text is compared with a number as the number that it is. A text without digits is none, unless it spells infinity:
`inf` and `infinity` are read as numbers in any case and with any sign (`Binary64.parse?_of_no_digit`), while on web
pages only `Infinity` is one, with or without a sign. What is no number is neither equal to a number nor less nor
greater (`Condition.holdsNone_iff`). So a word compares with all numbers as words should if and only if it does not
spell infinity (`Condition.word_comparisons_iff`), and `'inf' > 1` is the condition that tells
(`Condition.evaluate_inf`).
-/

namespace Pagewright

/-! ## Texts without digits -/

namespace Binary64

variable {x y : Binary64} {t : Text}

/-- Does the text spell infinity, in any case and with any sign? -/
def spellsInfinity (t : Text) : Bool :=
  Text.sameIgnoringAsciiCase (sign t).2 "inf".toList || Text.sameIgnoringAsciiCase (sign t).2 "infinity".toList

theorem sign_suffix (t : Text) : (sign t).2 <:+ t := by
  unfold sign
  split
  · exact List.suffix_cons _ _
  · exact List.suffix_cons _ _
  · exact List.suffix_rfl

theorem takeWhile_isDigit_of_no_digit (h : ∀ c ∈ t, Text.isDigit c = false) :
    t.takeWhile Text.isDigit = [] ∧ t.dropWhile Text.isDigit = t := by
  cases t with
  | nil => exact ⟨rfl, rfl⟩
  | cons c t =>
    have hc := h c List.mem_cons_self
    simp [hc]

/-- A text without digits is a number only if it is one of the words. -/
theorem parse?_of_no_digit (h : ∀ c ∈ t, Text.isDigit c = false) :
    parse? t =
      if spellsInfinity t then some (.infinite (sign t).1)
      else if Text.sameIgnoringAsciiCase (sign t).2 "nan".toList then some .nan
      else none := by
  have hbody : ∀ c ∈ (sign t).2, Text.isDigit c = false := fun c hc => h c ((sign_suffix t).subset hc)
  obtain ⟨hwhole, hrest⟩ := takeWhile_isDigit_of_no_digit hbody
  have hfraction : ∀ r, (sign t).2 = '.' :: r → r.takeWhile Text.isDigit = [] := fun r hr =>
    (takeWhile_isDigit_of_no_digit fun c hc => hbody c (by rw [hr]; exact List.mem_cons_of_mem _ hc)).1
  unfold parse? spellsInfinity
  generalize sign t = p at hbody hwhole hrest hfraction
  obtain ⟨negative, body⟩ := p
  dsimp only at hbody hwhole hrest hfraction ⊢
  rw [hwhole, hrest]
  split
  · next r => rw [hfraction r rfl]; rfl
  · rfl

/-! ## What is no number -/

theorem position?_eq_none_iff : x.position? = none ↔ x = .nan := by
  cases x with
  | nan => exact iff_of_true rfl rfl
  | infinite negative => exact iff_of_false (Option.some_ne_none _) nofun
  | finite negative m e => exact iff_of_false (Option.some_ne_none _) nofun

theorem compare?_eq_none_iff : x.compare? y = none ↔ x = .nan ∨ y = .nan := by
  rw [← position?_eq_none_iff, ← position?_eq_none_iff (x := y), compare?]
  cases x.position? <;> cases y.position? <;> simp

end Binary64

namespace Condition

open Operand

variable {s : Text} {x m n : Binary64} {a b : Operand} {left right : Expr} {context : Fields}

/-- The number of a word is none, or infinity where the word spells it. -/
theorem numberOfText_of_no_digit (hne : Text.trim s ≠ []) (h : ∀ c ∈ Text.trim s, Text.isDigit c = false) :
    numberOfText s = .nan ↔ Binary64.spellsInfinity (Text.trim s) = false := by
  have hnumber : numberOfText s = (Binary64.parse? (Text.trim s)).getD .nan :=
    if_neg (by simp [List.isEmpty_eq_false_iff.2 hne])
  rw [hnumber, Binary64.parse?_of_no_digit h]
  cases Binary64.spellsInfinity (Text.trim s) with
  | true => simp
  | false =>
    rw [if_neg (by decide)]
    split <;> simp

/-! ## Comparisons that do not hold -/

/-- The comparisons that convert their sides. -/
def comparisons : List Operator := [.eq, .notEq, .lt, .le, .gt, .ge]

/-- No comparison of the two values holds, except that they differ. -/
def HoldsNone (a b : Operand) : Prop := ∀ o ∈ comparisons, o.holds a b = (o == .notEq)

/-- Two values that are compared as numbers hold no comparison if and only if the numbers have no order. -/
theorem holdsNone_iff (hequals : looseEquals a b = m.equals n) (horder : order? a b = m.compare? n) :
    HoldsNone a b ↔ m.compare? n = none := by
  constructor
  · intro h
    have heq : looseEquals a b = false := h .eq (by decide)
    have hlt : (order? a b == some .lt) = false := h .lt (by decide)
    have hgt : (order? a b == some .gt) = false := h .gt (by decide)
    rw [hequals, Binary64.equals] at heq
    rw [horder] at hlt hgt
    cases hcompare : m.compare? n with
    | none => rfl
    | some ordering =>
      rw [hcompare] at heq hlt hgt
      cases ordering with
      | lt => cases hlt
      | eq => cases heq
      | gt => cases hgt
  · intro h o ho
    have hloose : looseEquals a b = false := by rw [hequals, Binary64.equals, h]; rfl
    have hnone : order? a b = none := horder.trans h
    simp only [comparisons, List.mem_cons, List.not_mem_nil, or_false] at ho
    rcases ho with rfl | rfl | rfl | rfl | rfl | rfl <;> simp only [Operator.holds, hloose, hnone] <;> rfl

/-! ## Comparisons of words -/

/-- The comparisons of a text and a number are those of the number of the text. -/
theorem holdsNone_string_iff (s : Text) (x : Binary64) :
    HoldsNone (.string s) (.number x) ∧ HoldsNone (.number x) (.string s) ↔ numberOfText s = .nan ∨ x = .nan := by
  have hleft : HoldsNone (.string s) (.number x) ↔ (numberOfText s).compare? x = none := holdsNone_iff rfl rfl
  have hright : HoldsNone (.number x) (.string s) ↔ x.compare? (numberOfText s) = none := holdsNone_iff rfl rfl
  rw [hleft, hright, Binary64.compare?_eq_none_iff, Binary64.compare?_eq_none_iff, or_comm (a := x = .nan), and_self]

/-- Comparing a text without digits with a number, in either order, is never true but for being different, if and only
if the text does not spell infinity; what is no number does not compare with anything. -/
theorem word_comparisons_iff (hleft : left.eval context = .ok (.string s)) (hright : right.eval context = .ok (.number x))
    (hne : Text.trim s ≠ []) (hdigit : ∀ c ∈ Text.trim s, Text.isDigit c = false) :
    (∀ o ∈ comparisons, (Expr.binary o left right).eval context = .ok (.bool (o == .notEq)) ∧
        (Expr.binary o right left).eval context = .ok (.bool (o == .notEq))) ↔
      Binary64.spellsInfinity (Text.trim s) = false ∨ x = .nan := by
  have heval : ∀ o ∈ comparisons, (Expr.binary o left right).eval context = .ok (.bool (o.holds (.string s) (.number x))) ∧
      (Expr.binary o right left).eval context = .ok (.bool (o.holds (.number x) (.string s))) := by
    intro o ho
    have hcomparison : o ≠ .or ∧ o ≠ .and := by
      constructor <;> rintro rfl <;> exact absurd ho (by decide)
    rw [Expr.eval_binary hcomparison, Expr.eval_binary hcomparison, hleft, hright]
    exact ⟨rfl, rfl⟩
  rw [← numberOfText_of_no_digit hne hdigit, ← holdsNone_string_iff]
  constructor
  · intro h
    refine ⟨fun o ho => ?_, fun o ho => ?_⟩
    · have hvalue := (heval o ho).1.symm.trans (h o ho).1
      exact Operand.bool.inj (Except.ok.inj hvalue)
    · have hvalue := (heval o ho).2.symm.trans (h o ho).2
      exact Operand.bool.inj (Except.ok.inj hvalue)
  · rintro ⟨hstring, hnumber⟩ o ho
    rw [(heval o ho).1, (heval o ho).2, hstring o ho, hnumber o ho]
    exact ⟨rfl, rfl⟩

/-- A field with a word that only begins like infinity, next to a number. -/
theorem word_comparisons_field :
    (Expr.ident ['s']).eval [(['s'], .string " infinite".toList)] = .ok (.string " infinite".toList) ∧
      ∀ o ∈ comparisons,
        (Expr.binary o (.ident ['s']) (.number (.ofInt 1))).eval [(['s'], .string " infinite".toList)] =
            .ok (.bool (o == .notEq)) ∧
          (Expr.binary o (.number (.ofInt 1)) (.ident ['s'])).eval [(['s'], .string " infinite".toList)] =
            .ok (.bool (o == .notEq)) := by
  have hfield : (Expr.ident ['s']).eval [(['s'], .string " infinite".toList)] = .ok (.string " infinite".toList) := rfl
  have hspells : Binary64.spellsInfinity (Text.trim " infinite".toList) = false := by decide
  exact ⟨hfield, (word_comparisons_iff hfield rfl (by decide) (by decide)).2 (.inl hspells)⟩

/-- The word `inf` has no digit, is none of the spellings of infinity on web pages, and yet is greater than one. -/
theorem evaluate_inf :
    Text.trim "inf".toList ≠ [] ∧ (∀ c ∈ Text.trim "inf".toList, Text.isDigit c = false) ∧
      Text.trim "inf".toList ∉ ["Infinity".toList, "+Infinity".toList, "-Infinity".toList] ∧
      evaluate "'inf' > 1".toList [] ['a'] = .ok true := by
  refine ⟨by decide, by decide, by decide, ?_⟩
  decide +kernel

end Condition

end Pagewright
