import Mathlib.Data.List.Forall2
import Pagewright.Condition.Expr

/-!
# Conditions of the same shape

The reading machine looks at which tokens it gets, but never into a quoted text. So two rows of tokens
that differ in quoted texts only (`Token.Alike`) take it through states of the same shape
(`State.Alike.step`, `State.Alike.run`), and either both are refused or both are read as trees of the same
shape (`Expr.Alike.ofTokens`). Which texts may stand for which is a relation `R`; a name of a field can be a
quoted text too.
-/

namespace Pagewright.Condition

/-- Two results that agree on whether there is one, with a relation between the values. -/
inductive SameOutcome {ε α : Type} (P : α → α → Prop) : Except ε α → Except ε α → Prop
  | ok {a b : α} (h : P a b) : SameOutcome P (.ok a) (.ok b)
  | error (e e' : ε) : SameOutcome P (.error e) (.error e')

variable (R : Text → Text → Prop)

/-- The same token, up to the text in quotes. -/
inductive Token.Alike : Token → Token → Prop
  | refl (t : Token) : Token.Alike t t
  | string {s s' : Text} (h : R s s') : Token.Alike (.string s) (.string s')

mutual

/-- The same tree, up to texts in quotes and names of fields. -/
inductive Expr.Alike : Expr → Expr → Prop
  | undefined : Expr.Alike .undefined .undefined
  | null : Expr.Alike .null .null
  | bool (b : Bool) : Expr.Alike (.bool b) (.bool b)
  | string {s s' : Text} (h : R s s') : Expr.Alike (.string s) (.string s')
  | number (x : Binary64) : Expr.Alike (.number x) (.number x)
  | ident (name : Text) : Expr.Alike (.ident name) (.ident name)
  | member {e e' : Expr} (name : Text) (h : Expr.Alike e e') :
    Expr.Alike (.member e name) (.member e' name)
  | index {e e' k k' : Expr} (h : Expr.Alike e e') (hk : Expr.Alike k k') :
    Expr.Alike (.index e k) (.index e' k')
  | not {e e' : Expr} (h : Expr.Alike e e') : Expr.Alike (.not e) (.not e')
  | neg {e e' : Expr} (h : Expr.Alike e e') : Expr.Alike (.neg e) (.neg e')
  | binary {a a' b b' : Expr} (o : Operator) (ha : Expr.Alike a a') (hb : Expr.Alike b b') :
    Expr.Alike (.binary o a b) (.binary o a' b')
  | array {es es' : List Expr} (h : List.Forall₂ Expr.Alike es es') :
    Expr.Alike (.array es) (.array es')
  | object {fs fs' : List (Text × Expr)} (h : FieldsAlike fs fs') :
    Expr.Alike (.object fs) (.object fs')

/-- The same fields, up to their names and the texts in their values. -/
inductive FieldsAlike : List (Text × Expr) → List (Text × Expr) → Prop
  | nil : FieldsAlike [] []
  | cons {k k' : Text} {e e' : Expr} {fs fs' : List (Text × Expr)} (hk : R k k') (h : Expr.Alike e e')
    (hfs : FieldsAlike fs fs') : FieldsAlike ((k, e) :: fs) ((k', e') :: fs')

end

/-- The same open construct, with trees of the same shape in it. -/
inductive Frame.Alike : Frame → Frame → Prop
  | not : Frame.Alike .not .not
  | neg : Frame.Alike .neg .neg
  | binary {e e' : Expr} (o : Operator) (h : Expr.Alike R e e') :
    Frame.Alike (.binary o e) (.binary o e')
  | group : Frame.Alike .group .group
  | index {e e' : Expr} (h : Expr.Alike R e e') : Frame.Alike (.index e) (.index e')
  | array {es es' : List Expr} (h : List.Forall₂ (Expr.Alike R) es es') :
    Frame.Alike (.array es) (.array es')
  | object {fs fs' : List (Text × Expr)} {k k' : Text} (h : FieldsAlike R fs fs') (hk : R k k') :
    Frame.Alike (.object fs k) (.object fs' k')

/-- The same tokens may come next. -/
inductive Expecting.Alike : Expecting → Expecting → Prop
  | operand : Expecting.Alike .operand .operand
  | firstItem : Expecting.Alike .firstItem .firstItem
  | firstKey : Expecting.Alike .firstKey .firstKey
  | key {fs fs' : List (Text × Expr)} (h : FieldsAlike R fs fs') :
    Expecting.Alike (.key fs) (.key fs')
  | colon {fs fs' : List (Text × Expr)} {k k' : Text} (h : FieldsAlike R fs fs') (hk : R k k') :
    Expecting.Alike (.colon fs k) (.colon fs' k')
  | property {e e' : Expr} (h : Expr.Alike R e e') : Expecting.Alike (.property e) (.property e')
  | continuation {e e' : Expr} (h : Expr.Alike R e e') :
    Expecting.Alike (.continuation e) (.continuation e')

/-- States where the same may come next and the same constructs are open. -/
structure State.Alike (s s' : State) : Prop where
  expecting : Expecting.Alike R s.expecting s'.expecting
  frames : List.Forall₂ (Frame.Alike R) s.frames s'.frames

variable {R}

theorem FieldsAlike.append {fs fs' gs gs' : List (Text × Expr)} (h : FieldsAlike R fs fs')
    (hg : FieldsAlike R gs gs') : FieldsAlike R (fs ++ gs) (fs' ++ gs') := by
  induction fs generalizing fs' with
  | nil =>
    cases h
    exact hg
  | cons f fs ih =>
    cases h with
    | cons hk he hfs => exact .cons hk he (ih hfs)

theorem Expr.Alike.operandOfName (name : Text) :
    Expr.Alike R (State.operandOfName name) (State.operandOfName name) := by
  unfold State.operandOfName
  split
  · exact .bool true
  · split
    · exact .bool false
    · split
      · exact .null
      · split
        · exact .undefined
        · exact .ident name

namespace State

variable {s s' : State} {t t' : Token} {e e' : Expr} {fs fs' : List Frame}

/-- The same constructs end before an operator. -/
theorem Alike.close (level : Nat) (he : Expr.Alike R e e') (hfs : List.Forall₂ (Frame.Alike R) fs fs') :
    Expr.Alike R (close level e fs).1 (close level e' fs').1 ∧
      List.Forall₂ (Frame.Alike R) (close level e fs).2 (close level e' fs').2 := by
  induction hfs generalizing e e' with
  | nil => exact ⟨he, .nil⟩
  | @cons f f' fs fs' hf hfs ih =>
    cases hf with
    | not => exact ih (.not he)
    | neg => exact ih (.neg he)
    | binary o h =>
      simp only [State.close]
      split
      · exact ih (.binary o h he)
      · exact ⟨he, .cons (.binary o h) hfs⟩
    | group => exact ⟨he, .cons .group hfs⟩
    | index h => exact ⟨he, .cons (.index h) hfs⟩
    | array h => exact ⟨he, .cons (.array h) hfs⟩
    | object h hk => exact ⟨he, .cons (.object h hk) hfs⟩

theorem Alike.beginOperand (hR : ∀ t, R t t) (hfs : List.Forall₂ (Frame.Alike R) fs fs')
    (ht : Token.Alike R t t') :
    SameOutcome (State.Alike R) (beginOperand fs t) (beginOperand fs' t') := by
  cases ht with
  | string h => exact .ok ⟨.continuation (.string h), hfs⟩
  | refl t =>
    cases t with
    | number x => exact .ok ⟨.continuation (.number x), hfs⟩
    | string t => exact .ok ⟨.continuation (.string (hR t)), hfs⟩
    | ident name => exact .ok ⟨.continuation (.operandOfName name), hfs⟩
    | lparen => exact .ok ⟨.operand, .cons .group hfs⟩
    | lbracket => exact .ok ⟨.firstItem, hfs⟩
    | lbrace => exact .ok ⟨.firstKey, hfs⟩
    | not => exact .ok ⟨.operand, .cons .not hfs⟩
    | minus => exact .ok ⟨.operand, .cons .neg hfs⟩
    | rparen | rbracket | rbrace | comma | colon | dot | operator => exact .error _ _

theorem Alike.beginField (hR : ∀ t, R t t) {fields fields' : List (Text × Expr)}
    (hfields : FieldsAlike R fields fields') (hfs : List.Forall₂ (Frame.Alike R) fs fs')
    (ht : Token.Alike R t t') :
    SameOutcome (State.Alike R) (beginField fields fs t) (beginField fields' fs' t') := by
  cases ht with
  | string h => exact .ok ⟨.colon hfields h, hfs⟩
  | refl t =>
    cases t with
    | number x => exact .ok ⟨.colon hfields (hR _), hfs⟩
    | string t => exact .ok ⟨.colon hfields (hR t), hfs⟩
    | ident name => exact .ok ⟨.colon hfields (hR name), hfs⟩
    | lparen | rparen | lbracket | rbracket | lbrace | rbrace | comma | colon | dot | not | minus |
      operator => exact .error _ _

/-- What ends a construct ends the same one. -/
theorem Alike.continueOperand (he : Expr.Alike R e e') (hfs : List.Forall₂ (Frame.Alike R) fs fs')
    (ht : Token.Alike R t t') :
    SameOutcome (State.Alike R) (continueOperand e fs t) (continueOperand e' fs' t') := by
  cases ht with
  | string h => exact .error _ _
  | refl t =>
    obtain ⟨inner, rest, inner', rest', h, h', hin, hrest⟩ : ∃ inner rest inner' rest',
        State.close 0 e fs = (inner, rest) ∧ State.close 0 e' fs' = (inner', rest') ∧
          Expr.Alike R inner inner' ∧ List.Forall₂ (Frame.Alike R) rest rest' :=
      ⟨_, _, _, _, rfl, rfl, Alike.close 0 he hfs⟩
    cases t with
    | dot => exact .ok ⟨.property he, hfs⟩
    | lbracket => exact .ok ⟨.operand, .cons (.index he) hfs⟩
    | operator o =>
      obtain ⟨hl, hrest⟩ := Alike.close o.level he hfs
      exact .ok ⟨.operand, .cons (.binary o hl) hrest⟩
    | rparen =>
      simp only [State.continueOperand, h, h']
      cases hrest with
      | nil => exact .error _ _
      | cons hf hrest =>
        cases hf with
        | group => exact .ok ⟨.continuation hin, hrest⟩
        | not | neg | binary | index | array | object => exact .error _ _
    | rbracket =>
      simp only [State.continueOperand, h, h']
      cases hrest with
      | nil => exact .error _ _
      | cons hf hrest =>
        cases hf with
        | index ht => exact .ok ⟨.continuation (.index ht hin), hrest⟩
        | array hes =>
          exact .ok ⟨.continuation (.array (List.rel_append hes (.cons hin .nil))), hrest⟩
        | not | neg | binary | group | object => exact .error _ _
    | rbrace =>
      simp only [State.continueOperand, h, h']
      cases hrest with
      | nil => exact .error _ _
      | cons hf hrest =>
        cases hf with
        | object hfields hk =>
          exact .ok ⟨.continuation (.object (hfields.append (.cons hk hin .nil))), hrest⟩
        | not | neg | binary | group | index | array => exact .error _ _
    | comma =>
      simp only [State.continueOperand, h, h']
      cases hrest with
      | nil => exact .error _ _
      | cons hf hrest =>
        cases hf with
        | array hes =>
          exact .ok ⟨.operand, .cons (.array (List.rel_append hes (.cons hin .nil))) hrest⟩
        | object hfields hk => exact .ok ⟨.key (hfields.append (.cons hk hin .nil)), hrest⟩
        | not | neg | binary | group | index => exact .error _ _
    | number | string | ident | lparen | lbrace | colon | not | minus => exact .error _ _

private theorem eq_iff_of_alike {u : Token} (hu : ∀ s, u ≠ .string s) (ht : Token.Alike R t t') :
    t = u ↔ t' = u := by
  cases ht with
  | refl t => rfl
  | string h => simp [Ne.symm (hu _)]

/-- One token takes alike states to alike states, or is refused by both. -/
theorem Alike.step (hR : ∀ t, R t t) (hs : State.Alike R s s') (ht : Token.Alike R t t') :
    SameOutcome (State.Alike R) (s.step t) (s'.step t') := by
  obtain ⟨x, fs⟩ := s
  obtain ⟨x', fs'⟩ := s'
  obtain ⟨hx, hfs⟩ := hs
  dsimp only at hx hfs
  cases hx with
  | operand => exact Alike.beginOperand hR hfs ht
  | firstItem =>
    simp only [State.step, eq_iff_of_alike (u := .rbracket) (by simp) ht]
    split
    · exact .ok ⟨.continuation (.array .nil), hfs⟩
    · exact Alike.beginOperand hR (.cons (.array .nil) hfs) ht
  | firstKey =>
    simp only [State.step, eq_iff_of_alike (u := .rbrace) (by simp) ht]
    split
    · exact .ok ⟨.continuation (.object .nil), hfs⟩
    · exact Alike.beginField hR .nil hfs ht
  | key h => exact Alike.beginField hR h hfs ht
  | colon h hk =>
    simp only [State.step, eq_iff_of_alike (u := .colon) (by simp) ht]
    split
    · exact .ok ⟨.operand, .cons (.object h hk) hfs⟩
    · exact .error _ _
  | property h =>
    cases ht with
    | string => exact .error _ _
    | refl t =>
      cases t with
      | ident name => exact .ok ⟨.continuation (.member name h), hfs⟩
      | number | string | lparen | rparen | lbracket | rbracket | lbrace | rbrace | comma | colon | dot |
        not | minus | operator => exact .error _ _
  | continuation h => exact Alike.continueOperand h hfs ht

/-- A row of tokens takes alike states to alike states, or is refused from both. -/
theorem Alike.run (hR : ∀ t, R t t) {ts ts' : List Token} (hts : List.Forall₂ (Token.Alike R) ts ts')
    (hs : State.Alike R s s') : SameOutcome (State.Alike R) (s.run ts) (s'.run ts') := by
  induction hts generalizing s s' with
  | nil => exact .ok hs
  | @cons t t' ts ts' ht hts ih =>
    have hstep := Alike.step hR hs ht
    simp only [State.run]
    generalize s.step t = r at hstep
    generalize s'.step t' = r' at hstep
    cases hstep with
    | ok h => exact ih h
    | error e e' => exact .error _ _

theorem Alike.finish (hs : State.Alike R s s') : SameOutcome (Expr.Alike R) s.finish s'.finish := by
  obtain ⟨x, fs⟩ := s
  obtain ⟨x', fs'⟩ := s'
  obtain ⟨hx, hfs⟩ := hs
  dsimp only at hx hfs
  cases hx with
  | @continuation e e' h =>
    obtain ⟨he, hrest⟩ := Alike.close 0 h hfs
    simp only [State.finish]
    generalize State.close 0 e fs = p at he hrest
    generalize State.close 0 e' fs' = p' at he hrest
    obtain ⟨e, rest⟩ := p
    obtain ⟨e', rest'⟩ := p'
    cases hrest with
    | nil => exact .ok he
    | cons => exact .error _ _
  | operand | firstItem | firstKey | key | colon | property => exact .error _ _

end State

/-- Two rows of tokens that differ in quoted texts only are trees of the same shape, or neither is an
expression. -/
theorem Expr.Alike.ofTokens (hR : ∀ t, R t t) {ts ts' : List Token}
    (hts : List.Forall₂ (Token.Alike R) ts ts') :
    SameOutcome (Expr.Alike R) (Expr.ofTokens ts) (Expr.ofTokens ts') := by
  have hstart : State.Alike R State.start State.start := ⟨.operand, .nil⟩
  have hrun := State.Alike.run hR hts hstart
  unfold Expr.ofTokens
  generalize State.start.run ts = r at hrun
  generalize State.start.run ts' = r' at hrun
  cases hrun with
  | ok h => exact State.Alike.finish h
  | error e e' => exact .error _ _

end Pagewright.Condition
