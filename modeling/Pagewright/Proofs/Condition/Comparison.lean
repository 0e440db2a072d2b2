import Pagewright.Proofs.Condition.Stringless
import Pagewright.Proofs.Condition.Value

/-!
# Comparing with a literal

A condition `… === 't'` asks whether something is the text `t`. What stands in front of the sign is put there in one
of two ways, and this module says what each of them asks:

* A string that is put there in quotes is compared with the literal, whatever characters it has
  (`holds_comparison_hole`).
* A string that is put there without quotes is code. If it has no quotes of its own, it has no string in it, and in a
  scope without strings it comes out the same with any literal behind the sign (`holds_comparison_congr`).
-/

namespace Pagewright.Condition

variable {c : Char} {n : Nat} {r s t t' u z rest scopeName : Text} {v : Json} {scope context fields : Fields}
  {token : Token} {ts : List Token} {e e' : Expr} {fs : List Frame} {st st' : State} {a : Operand}

/-! ## Literals -/

/-- A text that stands for itself between quotes. -/
def IsLiteral (t : Text) : Prop := ∀ c ∈ t, c ∉ "\"'\\\x7b\x7d".toList

instance (t : Text) : Decidable (IsLiteral t) := inferInstanceAs (Decidable (∀ c ∈ t, _))

theorem IsLiteral.notMem (h : IsLiteral t) (hc : c ∈ "\"'\\\x7b\x7d".toList) : c ∉ t := fun hm => h c hm hc

/-- A text between single quotes. -/
def quoted (t : Text) : Text := '\'' :: (t ++ ['\''])

/-- The condition that compares what is written in front of the sign with a literal. -/
def comparison (left t : Text) : Text := left ++ " === ".toList ++ quoted t

theorem notMem_comparison (hleft : c ∉ s) (ht : c ∉ t) (hsign : c ∉ " ='".toList) : c ∉ comparison s t := by
  have hne : c ≠ ' ' ∧ c ≠ '=' ∧ c ≠ '\'' := by simpa using hsign
  simp [comparison, quoted, hleft, ht, hne]

theorem brace_notMem_comparison (hs : '\x7b' ∉ s) (ht : IsLiteral t) : '\x7b' ∉ comparison s t :=
  notMem_comparison hs (ht.notMem (by decide)) (by decide)

namespace Token

theorem quotedTail_literal (ht : IsLiteral t) (start n : Nat) (r : Text) :
    quotedTail '\'' start n (t ++ '\'' :: r) = .ok (t, r) := by
  induction t generalizing n with
  | nil => exact quotedTail_quote
  | cons c t ih =>
    obtain ⟨hc, ht⟩ := List.forall_mem_cons.1 ht
    have hq : c ≠ '\'' := by
      rintro rfl
      exact hc (by decide)
    have hb : c ≠ '\\' := by
      rintro rfl
      exact hc (by decide)
    rw [List.cons_append, quotedTail_cons hq hb, ih ht]
    rfl

theorem next_quote (n : Nat) (t : Text) :
    next n '\'' t = (quotedTail '\'' n (n + 1) t).map fun (s, rest) => (string s, rest) := rfl

/-- A literal is one token. -/
theorem scanFrom_literal (ht : IsLiteral t) (n : Nat) : scanFrom n (quoted t) = .ok [string t] := by
  have hnext : next n '\'' (t ++ ['\'']) = .ok (string t, []) := by
    rw [next_quote, quotedTail_literal ht]
    rfl
  rw [quoted, scanFrom_next (by decide) hnext, scanFrom_nil]
  rfl

end Token

/-! ## A string in quotes -/

/-- A string in quotes is compared as a string. -/
theorem evaluate_comparison_quote (ht : IsLiteral t) (s : Text) (scope : Fields) (scopeName : Text) :
    evaluate (comparison (Json.quote s) t) scope scopeName = .ok (s == t) := by
  have hscan : Token.scan (comparison (Json.quote s) t) =
      .ok ([.string s] ++ .operator .strictEq :: [.string t]) :=
    scanFrom_equals (Token.scanFrom_quoted s) (Token.scanFrom_literal ht) 0
  have htree : Expr.ofTokens ([.string s] ++ .operator .strictEq :: [.string t]) =
      .ok (.binary .strictEq (.string s) (.string t)) := rfl
  have heval : (Expr.binary .strictEq (.string s) (.string t)).eval (contextOf scope scopeName) =
      .ok (.bool (s == t)) := rfl
  exact evaluate_eq hscan htree heval

/-- The placeholder of a string is put into a condition in quotes, so the string is compared with the literal. -/
theorem holds_comparison_hole {path : Text} (hne : path ≠ []) (hpath : ∀ c ∈ path, Placeholder.isPathChar c)
    (hs : scope.lookup? path = some (.string s)) (ht : IsLiteral t) :
    holds (comparison (hole scopeName path) t) scope scopeName = true ↔ s = t := by
  have hempty : '\x7b' ∉ ([] : Text) := by simp
  have hpost : '\x7b' ∉ comparison [] t := brace_notMem_comparison hempty ht
  have hinline : inlinePlaceholders scopeName scope (comparison (hole scopeName path) t) =
      comparison (Json.quote s) t := by
    have h : inlinePlaceholders scopeName scope ([] ++ hole scopeName path ++ comparison [] t) =
        [] ++ literal (.string s) ++ comparison [] t :=
      inlinePlaceholders_hole hne hpath hs hempty hpost
    have hliteral : literal (.string s) = Json.quote s := by
      rw [literal, Json.compact]
    rw [hliteral] at h
    simpa [comparison] using h
  rw [holds, hinline, evaluate_comparison_quote ht]
  exact beq_iff_eq

/-! ## A string without quotes -/

namespace State

theorem run_append_of_error {err : ConditionError} (h : st.run ts = .error err) (us : List Token) :
    st.run (ts ++ us) = .error err := by
  induction ts generalizing st with
  | nil => cases h
  | cons token ts ih =>
    rw [run] at h
    rw [List.cons_append, run]
    split at h
    · exact ih h
    · exact h

/-- Where an operand can begin or something else than an operator has to come, an operator is refused. -/
theorem exists_step_operator (o : Operator) (hst : ∀ e, st.expecting ≠ .continuation e) :
    ∃ err, st.step (.operator o) = .error err := by
  obtain ⟨expecting, fs⟩ := st
  cases expecting with
  | continuation e => exact absurd rfl (hst e)
  | operand | firstItem | firstKey | key | colon | property => exact ⟨_, rfl⟩

/-- What is closed around an operand depends on its value only. -/
theorem close_congr (h : e.eval context = e'.eval context) (level : Nat) (fs : List Frame) :
    (close level e fs).1.eval context = (close level e' fs).1.eval context ∧
      (close level e fs).2 = (close level e' fs).2 := by
  induction fs generalizing e e' with
  | nil => exact ⟨h, rfl⟩
  | cons f fs ih =>
    cases f with
    | not => exact ih (by simp only [Expr.eval, h])
    | neg => exact ih (by simp only [Expr.eval, h])
    | binary o left =>
      rw [close, close]
      split
      · exact ih (by simp only [Expr.eval, h])
      · exact ⟨h, rfl⟩
    | group | index | array | object => exact ⟨h, rfl⟩

theorem finish_congr (h : e.eval context = e'.eval context) (fs : List Frame) :
    (finish ⟨.continuation e, fs⟩ >>= Expr.eval context) = finish ⟨.continuation e', fs⟩ >>= Expr.eval context := by
  obtain ⟨heval, hrest⟩ := close_congr h 0 fs
  unfold finish
  dsimp only
  generalize close 0 e fs = p at heval hrest
  generalize close 0 e' fs = p' at heval hrest
  obtain ⟨e₁, rest⟩ := p
  obtain ⟨e₂, rest'⟩ := p'
  obtain rfl : rest = rest' := hrest
  cases rest with
  | nil => exact heval
  | cons f rest => rfl

end State

theorem ofTokens_append (h : State.start.run ts = .ok st) (us : List Token) :
    Expr.ofTokens (ts ++ us) = (st.run us).bind State.finish := by
  rw [Expr.ofTokens, State.run_append h]
  cases st.run us <;> rfl

/-- Behind tokens without strings a comparison with a literal is refused, or it is one whose other side has no
string. -/
theorem ofTokens_comparison (hts : ∀ token ∈ ts, token.IsStringless) :
    (∃ err, ∀ t, Expr.ofTokens (ts ++ .operator .strictEq :: [.string t]) = .error err) ∨
      ∃ left fs, left.IsStringless ∧ ∀ t, Expr.ofTokens (ts ++ .operator .strictEq :: [.string t]) =
        State.finish ⟨.continuation (.binary .strictEq left (.string t)), fs⟩ := by
  have hstart : State.start.IsStringless := ⟨trivial, by simp [State.start]⟩
  cases hrun : State.start.run ts with
  | error err => exact .inl ⟨err, fun t => by rw [Expr.ofTokens, State.run_append_of_error hrun]⟩
  | ok st =>
    obtain ⟨hexpecting, hframes⟩ := hstart.run hts hrun
    obtain ⟨expecting, fs⟩ := st
    by_cases hoperand : ∃ e, expecting = .continuation e
    · obtain ⟨e, rfl⟩ := hoperand
      have hleft := (State.isStringless_close 2 hexpecting hframes).1
      exact .inr ⟨(State.close 2 e fs).1, (State.close 2 e fs).2, hleft, fun t => ofTokens_append hrun _⟩
    · obtain ⟨err, hstep⟩ : ∃ err, State.step ⟨expecting, fs⟩ (.operator .strictEq) = .error err :=
        State.exists_step_operator .strictEq fun e he => hoperand ⟨e, he⟩
      refine .inl ⟨err, fun t => ?_⟩
      rw [ofTokens_append hrun, State.run, hstep]
      rfl

/-- What has no string is compared with a literal without a look at the literal. -/
theorem eval_comparison_congr (he : e.IsStringless) (hcontext : context.IsStringless) (t t' : Text) :
    (Expr.binary .strictEq e (.string t)).eval context = (Expr.binary .strictEq e (.string t')).eval context := by
  have heval : ∀ t, (Expr.binary .strictEq e (.string t)).eval context =
      e.eval context >>= fun a => .ok (.bool (a.strictEquals (.string t))) := fun t => by
    rw [Expr.eval]
    rfl
  rw [heval, heval]
  cases ha : e.eval context with
  | error err => rfl
  | ok a =>
    have hleft := he.eval hcontext ha
    show Except.ok (Operand.bool (a.strictEquals (.string t))) = Except.ok (Operand.bool (a.strictEquals (.string t')))
    rw [hleft.strictEquals_string, hleft.strictEquals_string]

/-- A condition without quotes in front of the sign comes out the same with any two literals behind it. -/
theorem evaluate_comparison_congr (hs : '"' ∉ s ∧ '\'' ∉ s) (hscope : ∀ f ∈ scope, f.2.IsStringless)
    (scopeName : Text) (ht : IsLiteral t) (ht' : IsLiteral t') :
    evaluate (comparison s t) scope scopeName = evaluate (comparison s t') scope scopeName := by
  have hcontext := isStringless_contextOf hscope scopeName
  have hevaluate : ∀ condition, evaluate condition scope scopeName =
      (Token.scan condition >>= fun ts => Expr.ofTokens ts >>= Expr.eval (contextOf scope scopeName)) >>=
        fun a => pure a.isTruthy := fun condition => by
    simp only [evaluate, bind_assoc]
  rw [hevaluate, hevaluate]
  refine congrArg (· >>= fun a : Operand => pure a.isTruthy) ?_
  cases hscan : Token.scan s with
  | error err =>
    have herror : ∀ t, Token.scan (comparison s t) = .error err := fun t => by
      have h := Token.scanFrom_append_blank_of_error hs hscan ("=== ".toList ++ quoted t)
      rw [comparison, Token.scan, List.append_assoc]
      exact h
    rw [herror, herror]
  | ok ts =>
    have hts := Token.isStringless_of_scanFrom hs hscan
    have hscan : ∀ t, IsLiteral t → Token.scan (comparison s t) = .ok (ts ++ .operator .strictEq :: [.string t]) :=
      fun t ht => scanFrom_equals (Token.scanFrom_eq_ok hscan) (Token.scanFrom_literal ht) 0
    rw [hscan t ht, hscan t' ht']
    show (Expr.ofTokens _ >>= Expr.eval _) = (Expr.ofTokens _ >>= Expr.eval _)
    rcases ofTokens_comparison hts with ⟨err, herror⟩ | ⟨left, fs, hleft, hread⟩
    · rw [herror, herror]
    · rw [hread, hread]
      exact State.finish_congr (eval_comparison_congr hleft hcontext t t') fs

theorem holds_comparison_congr (hs : IsLiteral s) (hscope : ∀ f ∈ scope, f.2.IsStringless) (scopeName : Text)
    (ht : IsLiteral t) (ht' : IsLiteral t') :
    holds (comparison s t) scope scopeName = holds (comparison s t') scope scopeName := by
  have hbrace : '\x7b' ∉ s := hs.notMem (by decide)
  have hquotes : '"' ∉ s ∧ '\'' ∉ s := ⟨hs.notMem (by decide), hs.notMem (by decide)⟩
  rw [holds, holds, inlinePlaceholders_of_notMem (brace_notMem_comparison hbrace ht),
    inlinePlaceholders_of_notMem (brace_notMem_comparison hbrace ht'),
    evaluate_comparison_congr hquotes hscope scopeName ht ht']

end Pagewright.Condition
