import Pagewright.Proofs.Condition.Value

/-!
# The laws of comparisons

Two values of different kinds are compared by converting one of them and comparing again. Three things live here:

* the comparison turn by turn (`Operand.turn`), which ends after three turns with the answer of `looseEquals`
  (`Operand.turns_eq`), since each turn leaves one value less to convert;
* equality with and without conversions is symmetric, and equal values are loosely equal (`Operand.looseEquals_comm`,
  `Operand.looseEquals_of_strictEquals`);
* the order of two values is turned round with them (`Operand.order?_swap`), so a comparison that is written the
  other way round has the same value (`Expr.eval_mirrored`).
-/

namespace Pagewright

/-! ## Orders -/

namespace Text

theorem compareUnits_swap (l m : List Nat) : (compareUnits l m).swap = compareUnits m l := by
  induction l generalizing m with
  | nil => cases m <;> rfl
  | cons a l ih =>
    cases m with
    | nil => rfl
    | cons b m =>
      rw [compareUnits, compareUnits, ← Nat.compare_swap b a]
      cases Ord.compare b a with
      | eq => exact ih m
      | lt => rfl
      | gt => rfl

end Text

theorem Binary64.compare?_swap (x y : Binary64) : (x.compare? y).map Ordering.swap = y.compare? x := by
  unfold compare?
  cases x.position? with
  | none => cases y.position? <;> rfl
  | some p =>
    cases y.position? with
    | none => rfl
    | some q => exact congrArg some (Int.compare_swap p q)

namespace Condition

namespace Operand

variable {a b : Operand}

/-! ## Equality turn by turn -/

/-- One turn of the equality with conversions: the answer, or the values that are compared instead. -/
def turn (a b : Operand) : Bool ⊕ Operand × Operand :=
  match a, b with
  | undefined, undefined | undefined, null | null, undefined | null, null => .inl true
  | undefined, _ | null, _ | _, undefined | _, null => .inl false
  | number _, string _ | string _, number _ => .inl (a.toNumber.equals b.toNumber)
  | bool _, _ => .inr (number a.toNumber, b)
  | _, bool _ => .inr (a, number b.toNumber)
  | _, _ =>
    if a.isCompound && !b.isCompound then .inr (string a.text, b)
    else if b.isCompound && !a.isCompound then .inr (a, string b.text)
    else .inl (strictEquals a b)

/-- The answer after at most so many turns. -/
def turns : Nat → Operand → Operand → Option Bool
  | 0, _, _ => none
  | n + 1, a, b =>
    match turn a b with
    | .inl answer => some answer
    | .inr (a', b') => turns n a' b'

/-- How often a value can be converted: truth values, arrays and objects become a number or a text, which stay what
they are. -/
def conversions : Operand → Nat
  | bool _ | array _ | object _ => 1
  | _ => 0

theorem looseEquals_of_turn_inl {answer : Bool} (h : turn a b = .inl answer) : looseEquals a b = answer := by
  cases a <;> cases b <;> cases h <;> rfl

/-- A conversion does not change the answer, and it is one of those that were left. -/
theorem looseEquals_of_turn_inr {a' b' : Operand} (h : turn a b = .inr (a', b')) :
    looseEquals a' b' = looseEquals a b ∧ a'.conversions + b'.conversions + 1 = a.conversions + b.conversions := by
  cases a <;> cases b <;> cases h <;> exact ⟨rfl, rfl⟩

/-- The comparison ends when there are more turns than conversions. -/
theorem turns_eq_of_lt {n : Nat} (h : a.conversions + b.conversions < n) : turns n a b = some (looseEquals a b) := by
  induction n generalizing a b with
  | zero => exact absurd h (Nat.not_lt_zero _)
  | succ n ih =>
    rw [turns]
    split
    · next answer hturn => rw [looseEquals_of_turn_inl hturn]
    · next a' b' hturn =>
      obtain ⟨hsame, hless⟩ := looseEquals_of_turn_inr hturn
      rw [ih (by omega), hsame]

theorem conversions_le (a : Operand) : a.conversions ≤ 1 := by
  cases a <;> simp [conversions]

/-- Three turns are always enough. -/
theorem turns_eq (a b : Operand) (n : Nat) : turns (n + 3) a b = some (looseEquals a b) := by
  refine turns_eq_of_lt ?_
  have ha := a.conversions_le
  have hb := b.conversions_le
  omega

/-! ## Symmetry -/

theorem numericEquals_comm (a b : Operand) : numericEquals a b = numericEquals b a := by
  cases a <;> cases b <;> simp only [numericEquals] <;>
    first | exact Binary64.equals_comm _ _ | exact strictEquals_comm _ _

theorem looseEquals_comm (a b : Operand) : looseEquals a b = looseEquals b a := by
  unfold looseEquals
  dsimp only
  generalize a.boolAsNumber = a'
  generalize b.boolAsNumber = b'
  rw [Bool.or_comm b.isNothing, Bool.and_comm b.isNothing]
  -- at most one of the two is turned into a text
  cases a'.isCompound <;> cases b'.isCompound <;>
    simp only [Bool.not_true, Bool.not_false, Bool.and_true, Bool.and_false, if_true, Bool.false_eq_true, if_false,
      numericEquals_comm b', numericEquals_comm (string b'.text)]

/-- What is equal is equal with conversions as well. -/
theorem looseEquals_of_strictEquals (h : strictEquals a b) : looseEquals a b := by
  cases a with
  | bool x =>
    cases b with
    | bool y =>
      obtain rfl : x = y := eq_of_beq h
      exact Binary64.equals_self (Binary64.ofInt_ne_nan _)
    | _ => cases h
  | _ => cases b <;> first | exact absurd h Bool.false_ne_true | exact h

/-- Two values the other way round have the opposite order. -/
theorem order?_swap (a b : Operand) : (order? a b).map Ordering.swap = order? b a := by
  unfold order?
  cases a.textForOrder? with
  | none => cases b.textForOrder? <;> exact Binary64.compare?_swap _ _
  | some s =>
    cases b.textForOrder? with
    | none => exact Binary64.compare?_swap _ _
    | some t => exact congrArg some (Text.compareUnits_swap _ _)

end Operand

open Operand

/-! ## Comparisons the other way round -/

/-- The operator for the same comparison with its sides exchanged. -/
def Operator.mirrored : Operator → Operator
  | lt => gt
  | le => ge
  | gt => lt
  | ge => le
  | o => o

theorem Operator.holds_mirrored (o : Operator) (a b : Operand) : o.mirrored.holds b a = o.holds a b := by
  cases o with
  | or | and => rfl
  | eq => exact looseEquals_comm b a
  | notEq => exact congrArg Bool.not (looseEquals_comm b a)
  | strictEq => exact strictEquals_comm b a
  | strictNotEq => exact congrArg Bool.not (strictEquals_comm b a)
  | lt | le | gt | ge =>
    unfold mirrored holds
    rw [← order?_swap a b]
    cases order? a b with
    | none => rfl
    | some ordering => cases ordering <;> rfl

/-- The value of a comparison comes from the values of its sides. -/
theorem Expr.eval_binary {o : Operator} (ho : o ≠ .or ∧ o ≠ .and) (left right : Expr) (context : Fields) :
    (Expr.binary o left right).eval context = do
      let a ← left.eval context
      let b ← right.eval context
      return .bool (o.holds a b) := by
  rw [Expr.eval]
  cases left.eval context with
  | error err => rfl
  | ok a =>
    cases o with
    | or => exact absurd rfl ho.1
    | and => exact absurd rfl ho.2
    | _ => rfl

theorem Expr.toOption_eval_binary {o : Operator} (ho : o ≠ .or ∧ o ≠ .and) (left right : Expr) (context : Fields) :
    ((Expr.binary o left right).eval context).toOption =
      (left.eval context).toOption.bind fun a => (right.eval context).toOption.map fun b => .bool (o.holds a b) := by
  rw [eval_binary ho]
  cases left.eval context with
  | error err => rfl
  | ok a => cases right.eval context <;> rfl

/-- A comparison has the same value the other way round, and has none if that has none. -/
theorem Expr.eval_mirrored {o : Operator} (ho : o ≠ .or ∧ o ≠ .and) (left right : Expr) (context : Fields) :
    ((Expr.binary o left right).eval context).toOption =
      ((Expr.binary o.mirrored right left).eval context).toOption := by
  have hmirrored : o.mirrored ≠ .or ∧ o.mirrored ≠ .and := by
    cases o <;> first | exact ho | exact ⟨by decide, by decide⟩
  rw [toOption_eval_binary ho, toOption_eval_binary hmirrored]
  cases (left.eval context).toOption with
  | none => cases (right.eval context).toOption <;> rfl
  | some a =>
    cases (right.eval context).toOption with
    | none => rfl
    | some b => exact congrArg (fun r => some (Operand.bool r)) (o.holds_mirrored a b).symm

/-- Of two values at most one is greater than the other. -/
theorem Operator.not_holds_lt_and_gt (a b : Operand) : ¬ (lt.holds a b ∧ gt.holds a b) := by
  rintro ⟨hlt, hgt⟩
  have hless : order? a b = some .lt := eq_of_beq hlt
  have hgreater : order? a b = some .gt := eq_of_beq hgt
  rw [hless] at hgreater
  cases hgreater

theorem Expr.not_eval_lt_and_gt (left right : Expr) (context : Fields) :
    ¬ ((Expr.binary .lt left right).eval context = .ok (.bool true) ∧
      (Expr.binary .gt left right).eval context = .ok (.bool true)) := by
  rintro ⟨hlt, hgt⟩
  have hless := toOption_eval_binary (o := .lt) ⟨by decide, by decide⟩ left right context
  have hgreater := toOption_eval_binary (o := .gt) ⟨by decide, by decide⟩ left right context
  rw [hlt] at hless
  rw [hgt] at hgreater
  obtain ⟨a, ha, hless⟩ := Option.bind_eq_some_iff.1 hless.symm
  obtain ⟨b, hb, hless⟩ := Option.map_eq_some_iff.1 hless
  rw [ha, hb] at hgreater
  exact Operator.not_holds_lt_and_gt a b ⟨Operand.bool.inj hless, (Operand.bool.inj (Option.some.inj hgreater)).symm⟩

/-- Comparing values ends and follows the laws of equality and order: both equalities are symmetric, what is equal is
equal with conversions as well, and the order is turned round with its sides. So a comparison of two expressions has
the same value the other way round, and no value is less and greater than another one. -/
theorem comparison_laws (a b : Operand) :
    (∀ n, turns (n + 3) a b = some (looseEquals a b)) ∧
      looseEquals a b = looseEquals b a ∧ strictEquals a b = strictEquals b a ∧
      (strictEquals a b → looseEquals a b) ∧ (order? a b).map Ordering.swap = order? b a ∧
      ∀ (left right : Expr) (context : Fields),
        ((Expr.binary .eq left right).eval context).toOption = ((Expr.binary .eq right left).eval context).toOption ∧
          ((Expr.binary .lt left right).eval context).toOption = ((Expr.binary .gt right left).eval context).toOption ∧
          ((Expr.binary .le left right).eval context).toOption = ((Expr.binary .ge right left).eval context).toOption ∧
          ¬ ((Expr.binary .lt left right).eval context = .ok (.bool true) ∧
            (Expr.binary .gt left right).eval context = .ok (.bool true)) := by
  refine ⟨turns_eq a b, looseEquals_comm a b, strictEquals_comm a b, looseEquals_of_strictEquals, order?_swap a b,
    fun left right context => ⟨?_, ?_, ?_, Expr.not_eval_lt_and_gt left right context⟩⟩
  · exact Expr.eval_mirrored (o := .eq) ⟨by decide, by decide⟩ left right context
  · exact Expr.eval_mirrored (o := .lt) ⟨by decide, by decide⟩ left right context
  · exact Expr.eval_mirrored (o := .le) ⟨by decide, by decide⟩ left right context

/-- A true value equals an array of a text that is the number one: the one becomes a number, the other a text, and then
the two are compared. -/
example :
    turns 2 (.bool true) (.array [.string ['1']]) = none ∧
      turns 3 (.bool true) (.array [.string ['1']]) = some true := by
  decide +kernel

/-- Arrays of zeros with different signs are equal, and so they are with conversions, either way round. -/
theorem comparison_laws_zeros :
    let a : Operand := .array [.number (.real (.finite false 0 0))]
    let b : Operand := .array [.number (.real (.finite true 0 0))]
    strictEquals a b = true ∧ looseEquals a b = true ∧ looseEquals b a = true := by
  intro a b
  have hstrict : strictEquals a b = true := by decide +kernel
  obtain ⟨-, hcomm, -, hloose, -⟩ := comparison_laws a b
  exact ⟨hstrict, hloose hstrict, hcomm ▸ hloose hstrict⟩

end Condition

end Pagewright
