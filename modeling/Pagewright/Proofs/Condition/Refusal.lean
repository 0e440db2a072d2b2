import Pagewright.Proofs.Condition.Grammar

/-!
# What a refused condition names

A row of tokens that is no expression is either the beginning of one or has a first token that no expression goes on
with. Three things live here:

* the two ways in which a row is wrong, said with the grammar alone (`CanContinue`, `FirstWrong`);
* every state of the machine, reachable or not, has tokens that lead it to a complete expression: they close what is
  open from the inside out (`State.completable`);
* so a token that the machine takes is one that an expression goes on with, and one that it refuses is not
  (`canContinue_iff`), which says what the machine reports behind a row and what it reports at a token.
-/

namespace Pagewright.Condition

open State

variable {s s' : State} {ts us before before' : List Token} {t t' : Token} {err : ConditionError}

/-! ## Rows that are no expressions -/

/-- Further tokens, or none, make the row an expression. -/
def CanContinue (ts : List Token) : Prop := ∃ us e, Derives .or (ts ++ us) e

/-- A token of the row is the first wrong one: an expression can go on behind the tokens before it, but none goes on
with the token. -/
structure FirstWrong (ts before : List Token) (t : Token) : Prop where
  begins : before ++ [t] <+: ts
  before_canContinue : CanContinue before
  not_canContinue : ¬ CanContinue (before ++ [t])

theorem CanContinue.shorten (h : CanContinue us) (hts : ts <+: us) : CanContinue ts := by
  obtain ⟨vs, rfl⟩ := hts
  obtain ⟨ws, e, hderives⟩ := h
  exact ⟨vs ++ ws, e, by rwa [← List.append_assoc]⟩

/-- A first wrong token has no other one behind it. -/
theorem FirstWrong.length_le (h : FirstWrong ts before t) (h' : FirstWrong ts before' t') :
    before'.length ≤ before.length := by
  refine Nat.le_of_not_lt fun hlt => ?_
  have hlength : (before ++ [t]).length ≤ before'.length := by
    rw [List.length_append, List.length_singleton]
    exact hlt
  have hbefore' : before' <+: ts := (List.prefix_append before' [t']).trans h'.begins
  have hwrong : before ++ [t] <+: before' := List.prefix_of_prefix_length_le h.begins hbefore' hlength
  exact h.not_canContinue (h'.before_canContinue.shorten hwrong)

/-- No row has two first wrong tokens. -/
theorem FirstWrong.unique (h : FirstWrong ts before t) (h' : FirstWrong ts before' t') :
    before' = before ∧ t' = t := by
  have hlength : before'.length = before.length := Nat.le_antisymm (h.length_le h') (h'.length_le h)
  have hsame : (before' ++ [t']).length = (before ++ [t]).length := by
    rw [List.length_append, List.length_append, hlength, List.length_singleton, List.length_singleton]
  have hbegins := List.prefix_of_prefix_length_le h'.begins h.begins (Nat.le_of_eq hsame)
  obtain ⟨hbefore, htoken⟩ := List.append_inj (hbegins.eq_of_length hsame) hlength
  exact ⟨hbefore, List.singleton_inj.1 htoken⟩

namespace State

/-! ## Every state can be completed -/

theorem length_close_le (n : Nat) (e : Expr) (fs : List Frame) : (close n e fs).2.length ≤ fs.length := by
  induction fs generalizing e with
  | nil => exact Nat.le_refl 0
  | cons f fs ih =>
    cases f with
    | not | neg => exact Nat.le_succ_of_le (ih _)
    | binary o left =>
      rw [close]
      split
      · exact Nat.le_succ_of_le (ih _)
      · exact Nat.le_refl _
    | group | index | array | object => exact Nat.le_refl _

/-- What closing leaves open does not end before an operator of the level. -/
theorem compatible_close (n : Nat) (e : Expr) (fs : List Frame) : Compatible n (close n e fs).2 := by
  induction fs generalizing e with
  | nil => trivial
  | cons f fs ih =>
    cases f with
    | not | neg => exact ih _
    | binary o left =>
      rw [close]
      split
      · exact ih _
      · next hlt => exact Nat.lt_of_not_le hlt
    | group | index | array | object => trivial

/-- Some tokens lead from the state to a complete expression. -/
def Completable (s : State) : Prop := ∃ us s' e, s.run us = .ok s' ∧ s'.finish = .ok e

theorem Completable.of_run (h : s'.Completable) (hrun : s.run ts = .ok s') : s.Completable := by
  obtain ⟨us, s'', e, hrest, hfinish⟩ := h
  exact ⟨ts ++ us, s'', e, (run_append hrun us).trans hrest, hfinish⟩

theorem run_singleton (h : s.step t = .ok s') : s.run [t] = .ok s' := by
  rw [run, h]
  rfl

/-- Behind an operand, the sign that closes the innermost open construct leads to fewer open ones. -/
theorem completable_continuation (e : Expr) (fs : List Frame) : Completable ⟨.continuation e, fs⟩ := by
  induction hn : fs.length using Nat.strongRecOn generalizing e fs with
  | ind n ih =>
    have hlength := length_close_le 0 e fs
    have hcompatible := compatible_close 0 e fs
    rcases hclose : close 0 e fs with ⟨e', fs'⟩
    rw [hclose] at hlength hcompatible
    cases fs' with
    | nil => exact ⟨[], _, e', rfl, by rw [finish, hclose]⟩
    | cons f rest =>
      have hlt : rest.length < n := by
        rw [← hn]
        exact hlength
      have hrest : ∀ e'', Completable ⟨.continuation e'', rest⟩ := fun e'' => ih _ hlt e'' rest rfl
      -- closing has taken the operators away, so what is open is a bracket
      cases f with
      | not | neg => exact absurd (show 4 ≤ 0 from hcompatible) (by decide)
      | binary o left => exact absurd hcompatible (Nat.not_lt_zero _)
      | group => exact (hrest e').of_run (run_singleton (t := .rparen) (by rw [step, continueOperand, hclose]))
      | index target =>
        exact (hrest (.index target e')).of_run
          (run_singleton (t := .rbracket) (by rw [step, continueOperand, hclose]))
      | array items =>
        exact (hrest (.array (items ++ [e']))).of_run
          (run_singleton (t := .rbracket) (by rw [step, continueOperand, hclose]))
      | object fields k =>
        exact (hrest (.object (fields ++ [(k, e')]))).of_run
          (run_singleton (t := .rbrace) (by rw [step, continueOperand, hclose]))

/-- Where an operand is expected, any operand leads on. -/
theorem completable_operand (fs : List Frame) : Completable ⟨.operand, fs⟩ :=
  (completable_continuation .null fs).of_run (run_singleton (t := .ident "null".toList) rfl)

/-- Every state has an expression that goes on from it: what the last token asks for, and then the end of all that is
open. -/
theorem completable (s : State) : s.Completable := by
  obtain ⟨expecting, fs⟩ := s
  have hcolon : ∀ fields k, Completable ⟨.colon fields k, fs⟩ := fun fields k =>
    (completable_operand (.object fields k :: fs)).of_run (run_singleton (t := .colon) rfl)
  cases expecting with
  | operand => exact completable_operand fs
  | firstItem => exact (completable_continuation (.array []) fs).of_run (run_singleton (t := .rbracket) rfl)
  | firstKey => exact (completable_continuation (.object []) fs).of_run (run_singleton (t := .rbrace) rfl)
  | key fields => exact (hcolon fields []).of_run (run_singleton (t := .ident []) rfl)
  | colon fields k => exact hcolon fields k
  | property target =>
    exact (completable_continuation (.member target []) fs).of_run (run_singleton (t := .ident []) rfl)
  | continuation e => exact completable_continuation e fs

/-! ## What is refused -/

theorem beginOperand_error {fs : List Frame} (h : beginOperand fs t = .error err) : err = .unexpectedToken t := by
  cases t with
  | number | string | ident | lparen | lbracket | lbrace | not | minus => cases h
  | rparen | rbracket | rbrace | comma | colon | dot | operator =>
    cases h
    rfl

theorem beginField_error {fields : List (Text × Expr)} {fs : List Frame} (h : beginField fields fs t = .error err) :
    err = .unexpectedToken t := by
  cases t with
  | number | string | ident => cases h
  | lparen | rparen | lbracket | rbracket | lbrace | rbrace | comma | colon | dot | not | minus | operator =>
    cases h
    rfl

theorem continueOperand_error {e : Expr} {fs : List Frame} (h : continueOperand e fs t = .error err) :
    err = .unexpectedToken t := by
  cases t with
  | dot | lbracket | operator => cases h
  | rparen | rbracket | rbrace | comma =>
    rw [continueOperand] at h
    split at h <;> cases h
    rfl
  | number | string | ident | lparen | lbrace | colon | not | minus =>
    cases h
    rfl

/-- A token that is refused is the one that the error names. -/
theorem step_error (h : s.step t = .error err) : err = .unexpectedToken t := by
  obtain ⟨expecting, fs⟩ := s
  cases expecting with
  | operand => exact beginOperand_error h
  | firstItem =>
    rw [step] at h
    split at h
    · cases h
    · exact beginOperand_error h
  | firstKey =>
    rw [step] at h
    split at h
    · cases h
    · exact beginField_error h
  | key fields => exact beginField_error h
  | colon fields k =>
    rw [step] at h
    split at h <;> cases h
    rfl
  | property target =>
    cases t with
    | ident => cases h
    | number | string | lparen | rparen | lbracket | rbracket | lbrace | rbrace | comma | colon | dot | not | minus |
      operator =>
      cases h
      rfl
  | continuation e => exact continueOperand_error h

/-- A row that is refused is read up to the token that the error names. -/
theorem run_error (h : s.run ts = .error err) :
    ∃ before t behind s', ts = before ++ t :: behind ∧ s.run before = .ok s' ∧ s'.step t = .error err := by
  induction ts generalizing s with
  | nil => cases h
  | cons t ts ih =>
    rw [run] at h
    cases hstep : s.step t with
    | ok s₁ =>
      rw [hstep] at h
      obtain ⟨before, u, behind, s', rfl, hrun, hrefused⟩ := ih h
      exact ⟨t :: before, u, behind, s', rfl, by rw [run, hstep]; exact hrun, hrefused⟩
    | error err' =>
      rw [hstep] at h
      cases h
      exact ⟨[], t, ts, s, rfl, rfl, hstep⟩

/-- What is read of a row is read of its beginning. -/
theorem exists_run_of_append (h : s.run (ts ++ us) = .ok s') : ∃ s₁, s.run ts = .ok s₁ := by
  induction ts generalizing s with
  | nil => exact ⟨s, rfl⟩
  | cons t ts ih =>
    rw [List.cons_append, run] at h
    rw [run]
    cases hstep : s.step t with
    | ok s₁ =>
      rw [hstep] at h
      exact ih h
    | error err =>
      rw [hstep] at h
      cases h

theorem finish_error (h : s.finish = .error err) : err = .unexpectedEnd := by
  obtain ⟨expecting, fs⟩ := s
  cases expecting with
  | continuation e =>
    rw [finish] at h
    split at h <;> cases h
    rfl
  | operand | firstItem | firstKey | key | colon | property =>
    cases h
    rfl

end State

/-- An expression goes on behind the tokens that the machine takes, and behind no others. -/
theorem canContinue_iff : CanContinue ts ↔ ∃ s, start.run ts = .ok s := by
  constructor
  · rintro ⟨us, e, h⟩
    have hread := h.ofTokens
    rw [Expr.ofTokens] at hread
    split at hread
    · next s hrun => exact exists_run_of_append hrun
    · cases hread
  · rintro ⟨s, hrun⟩
    obtain ⟨us, s', e, hrest, hfinish⟩ := s.completable
    refine ⟨us, e, .of_ofTokens ?_⟩
    rw [Expr.ofTokens, run_append hrun, hrest]
    exact hfinish

/-- **A row that is no expression is refused where it goes wrong.** What some tokens would complete lacks its end. In
every other row exactly one token is the first with which no expression goes on, and the error names it. -/
theorem ofTokens_firstWrong (h : ∀ e, ¬ Derives .or ts e) :
    (Expr.ofTokens ts = .error .unexpectedEnd ↔ CanContinue ts) ∧
      (¬ CanContinue ts → ∃ before t, FirstWrong ts before t ∧
        (∀ before' t', FirstWrong ts before' t' → before' = before ∧ t' = t) ∧
        Expr.ofTokens ts = .error (.unexpectedToken t)) := by
  cases hrun : start.run ts with
  | ok s =>
    have hread : Expr.ofTokens ts = s.finish := by rw [Expr.ofTokens, hrun]
    have hcan : CanContinue ts := canContinue_iff.2 ⟨s, hrun⟩
    cases hfinish : s.finish with
    | ok e => exact absurd (Derives.of_ofTokens (hread.trans hfinish)) (h e)
    | error err =>
      obtain rfl := finish_error hfinish
      exact ⟨⟨fun _ => hcan, fun _ => hread.trans hfinish⟩, fun hnot => absurd hcan hnot⟩
  | error err =>
    have hread : Expr.ofTokens ts = .error err := by rw [Expr.ofTokens, hrun]
    have hnot : ¬ CanContinue ts := fun hcan => by
      obtain ⟨s, hs⟩ := canContinue_iff.1 hcan
      rw [hs] at hrun
      cases hrun
    obtain ⟨before, t, behind, s', rfl, hbefore, hrefused⟩ := run_error hrun
    obtain rfl := step_error hrefused
    have hwrong : FirstWrong (before ++ t :: behind) before t :=
      { begins := ⟨behind, by rw [List.append_assoc, List.singleton_append]⟩
        before_canContinue := canContinue_iff.2 ⟨s', hbefore⟩
        not_canContinue := fun hcan => by
          obtain ⟨s, hs⟩ := canContinue_iff.1 hcan
          rw [run_append hbefore, run, hrefused] at hs
          cases hs }
    refine ⟨⟨fun hend => ?_, fun hcan => absurd hcan hnot⟩, fun _ => ?_⟩
    · rw [hread] at hend
      cases hend
    · exact ⟨before, t, hwrong, fun _ _ => hwrong.unique, hread⟩

/-- A field without a value, `{a}`: the brace is the first wrong token. -/
theorem firstWrong_field_without_value :
    (∀ e, ¬ Derives .or [.lbrace, .ident "a".toList, .rbrace] e) ∧
      ∃ before, FirstWrong [.lbrace, .ident "a".toList, .rbrace] before .rbrace := by
  have hread : Expr.ofTokens [.lbrace, .ident "a".toList, .rbrace] = .error (.unexpectedToken .rbrace) := rfl
  have hnone : ∀ e, ¬ Derives .or [.lbrace, .ident "a".toList, .rbrace] e := fun e h => by
    have hok := h.ofTokens
    rw [hread] at hok
    cases hok
  obtain ⟨hend, htoken⟩ := ofTokens_firstWrong hnone
  have hnot : ¬ CanContinue [.lbrace, .ident "a".toList, .rbrace] := fun hcan => by
    have herror := hend.2 hcan
    rw [hread] at herror
    cases herror
  obtain ⟨before, t, hwrong, -, herror⟩ := htoken hnot
  rw [hread] at herror
  cases herror
  exact ⟨hnone, before, hwrong⟩

end Pagewright.Condition
