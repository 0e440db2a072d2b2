import Pagewright.Condition.Expr

/-!
# The grammar of conditions

Conditions have operators of four levels, and the grammar has a category for each of them: an expression of a level
is a row of expressions of the next level with operators between them, grouped from the left. Three things live
here:

* the grammar, as the derivations of rows of tokens with the trees that they prescribe (`Derives`);
* completeness: what has a derivation is read as its tree (`Derives.ofTokens`). The machine groups operators only when
  it has to, so behind a row of tokens it is not in the state that the tree stands for, but in one that becomes this
  state when the next operator or the end closes what is open (`Category.IsRead`);
* soundness: what is read has a derivation (`Derives.of_ofTokens`). A state stands for the derivations of what is
  complete and the tokens of what is open (`Opened`, `State.Explains`), and each token keeps that up
  (`State.Explains.step`).
-/

namespace Pagewright.Condition

/-! ## The grammar -/

/-- What a row of tokens can be. -/
inductive Category
  | or | and | equality | relation
  | unary
  | suffixed
  | primary
  /-- The items of an array, with commas between them. -/
  | items
  /-- The fields of an object, with commas between them. -/
  | fields
deriving DecidableEq

namespace Category

/-- The category that binds tighter by one level. -/
def tighter? : Category → Option Category
  | or => some and
  | and => some equality
  | equality => some relation
  | relation => some unary
  | unary => some suffixed
  | suffixed => some primary
  | primary | items | fields => none

/-- The operators between expressions of the next level. -/
def operators : Category → List Operator
  | or => [.or]
  | and => [.and]
  | equality => [.eq, .notEq, .strictEq, .strictNotEq]
  | relation => [.lt, .le, .gt, .ge]
  | unary | suffixed | primary | items | fields => []

end Category

/-- Names that are values. -/
def wordValues : List (Text × Expr) :=
  [("true".toList, .bool true), ("false".toList, .bool false), ("null".toList, .null),
    ("undefined".toList, .undefined)]

/-- The name of a field that a token is. -/
def keyOf? : Token → Option Text
  | .string k | .ident k => some k
  | .number x => some x.plainText
  | _ => none

/-- A row of tokens is an expression of a category, with the given tree. The items of an array and the fields of an
object are rows whose tree is that of the whole. -/
inductive Derives : Category → List Token → Expr → Prop
  | single {c d : Category} {ts : List Token} {e : Expr} (hd : c.tighter? = some d) (h : Derives d ts e) :
    Derives c ts e
  | chain {c d : Category} {o : Operator} {ts us : List Token} {left right : Expr} (ho : o ∈ c.operators)
    (hd : c.tighter? = some d) (hl : Derives c ts left) (hr : Derives d us right) :
    Derives c (ts ++ .operator o :: us) (.binary o left right)
  | not {ts : List Token} {e : Expr} (h : Derives .unary ts e) : Derives .unary (.not :: ts) (.not e)
  | neg {ts : List Token} {e : Expr} (h : Derives .unary ts e) : Derives .unary (.minus :: ts) (.neg e)
  | member {ts : List Token} {e : Expr} (name : Text) (h : Derives .suffixed ts e) :
    Derives .suffixed (ts ++ [.dot, .ident name]) (.member e name)
  | index {ts us : List Token} {e k : Expr} (h : Derives .suffixed ts e) (hk : Derives .or us k) :
    Derives .suffixed (ts ++ .lbracket :: (us ++ [.rbracket])) (.index e k)
  | number (x : Binary64) : Derives .primary [.number x] (.number x)
  | string (t : Text) : Derives .primary [.string t] (.string t)
  | word {name : Text} {e : Expr} (h : (name, e) ∈ wordValues) : Derives .primary [.ident name] e
  | ident {name : Text} (h : name ∉ wordValues.map Prod.fst) : Derives .primary [.ident name] (.ident name)
  | group {ts : List Token} {e : Expr} (h : Derives .or ts e) : Derives .primary (.lparen :: (ts ++ [.rparen])) e
  | noItems : Derives .primary [.lbracket, .rbracket] (.array [])
  | array {ts : List Token} {e : Expr} (h : Derives .items ts e) : Derives .primary (.lbracket :: (ts ++ [.rbracket])) e
  | noFields : Derives .primary [.lbrace, .rbrace] (.object [])
  | object {ts : List Token} {e : Expr} (h : Derives .fields ts e) : Derives .primary (.lbrace :: (ts ++ [.rbrace])) e
  | item {ts : List Token} {e : Expr} (h : Derives .or ts e) : Derives .items ts (.array [e])
  | items {ts us : List Token} {es : List Expr} {e : Expr} (h : Derives .items ts (.array es)) (he : Derives .or us e) :
    Derives .items (ts ++ .comma :: us) (.array (es ++ [e]))
  | field {t : Token} {k : Text} {ts : List Token} {e : Expr} (hk : keyOf? t = some k) (h : Derives .or ts e) :
    Derives .fields (t :: .colon :: ts) (.object [(k, e)])
  | fields {t : Token} {k : Text} {ts us : List Token} {fields : List (Text × Expr)} {e : Expr}
    (h : Derives .fields ts (.object fields)) (hk : keyOf? t = some k) (he : Derives .or us e) :
    Derives .fields (ts ++ .comma :: t :: .colon :: us) (.object (fields ++ [(k, e)]))

variable {c d : Category} {s s' : State} {ts us : List Token} {t : Token} {e e' : Expr} {fs fs' : List Frame} {m n : Nat}
  {o : Operator} {name k : Text}

/-! ## Levels -/

namespace Category

/-- The categories of expressions by level; those without operators of their own are of the last one. -/
def level : Category → Nat
  | or => 0
  | and => 1
  | equality => 2
  | relation => 3
  | unary | suffixed | primary | items | fields => 4

/-- The category of a level. -/
def ofLevel : Nat → Category
  | 0 => or
  | 1 => and
  | 2 => equality
  | 3 => relation
  | _ => unary

theorem level_eq_of_mem_operators (ho : o ∈ c.operators) : o.level = c.level := by
  revert ho
  cases c <;> cases o <;> decide

theorem mem_operators_ofLevel (o : Operator) : o ∈ (ofLevel o.level).operators := by
  cases o <;> decide

theorem tighter?_ofLevel (h : n ≤ 3) : (ofLevel n).tighter? = some (ofLevel (n + 1)) := by
  have hn : n = 0 ∨ n = 1 ∨ n = 2 ∨ n = 3 := by omega
  rcases hn with rfl | rfl | rfl | rfl <;> rfl

end Category

theorem level_le (o : Operator) : o.level ≤ 3 := by
  cases o <;> decide

/-- What binds tighter is an expression of the looser levels, too. -/
theorem Derives.loosen (h : Derives (.ofLevel m) ts e) (hn : n ≤ m) (hm : m ≤ 4) : Derives (.ofLevel n) ts e := by
  induction hn with
  | refl => exact h
  | @step m hle ih =>
    have hm' : m ≤ 3 := by omega
    exact ih (.single (Category.tighter?_ofLevel hm') h) (by omega)

/-- The value of a word is what the machine reads it as. -/
theorem operandOfName_of_mem (h : (name, e) ∈ wordValues) : State.operandOfName name = e := by
  simp only [wordValues, List.mem_cons, Prod.mk.injEq, List.not_mem_nil, or_false] at h
  rcases h with ⟨rfl, rfl⟩ | ⟨rfl, rfl⟩ | ⟨rfl, rfl⟩ | ⟨rfl, rfl⟩ <;> rfl

/-- Other names are read as themselves. -/
theorem operandOfName_of_notMem (h : name ∉ wordValues.map Prod.fst) : State.operandOfName name = .ident name := by
  have hne : name ∉ ["true".toList, "false".toList, "null".toList, "undefined".toList] := h
  simp only [List.mem_cons, List.not_mem_nil, or_false, not_or] at hne
  rw [State.operandOfName, if_neg hne.1, if_neg hne.2.1, if_neg hne.2.2.1, if_neg hne.2.2.2]

/-- A name is read as the value that it is, or as itself. -/
theorem derives_operandOfName (name : Text) : Derives .primary [.ident name] (State.operandOfName name) := by
  by_cases hword : name ∈ wordValues.map Prod.fst
  · obtain ⟨⟨_, e⟩, hmem, rfl⟩ := List.mem_map.1 hword
    rw [operandOfName_of_mem hmem]
    exact .word hmem
  · rw [operandOfName_of_notMem hword]
    exact .ident hword

namespace State

/-- No construct of the open ones ends before an operand of the level does. -/
def Compatible (n : Nat) : List Frame → Prop
  | .not :: _ | .neg :: _ => 4 ≤ n
  | .binary o _ :: _ => o.level < n
  | _ => True

theorem Compatible.mono (h : Compatible n fs) (hm : n ≤ m) : Compatible m fs := by
  match fs, h with
  | .not :: _, h | .neg :: _, h => exact Nat.le_trans h hm
  | .binary _ _ :: _, h => exact Nat.lt_of_lt_of_le h hm
  | [], _ | .group :: _, _ | .index _ :: _, _ | .array _ :: _, _ | .object _ _ :: _, _ => trivial

theorem close_of_compatible (h : Compatible n fs) (hn : n ≤ 3) : close n e fs = (e, fs) := by
  match fs, h with
  | .not :: _, h | .neg :: _, h =>
    have h4 : 4 ≤ n := h
    omega
  | .binary o _ :: _, h =>
    have hlt : ¬ n ≤ o.level := Nat.not_le.2 h
    rw [close, if_neg hlt]
  | [], _ | .group :: _, _ | .index _ :: _, _ | .array _ :: _, _ | .object _ _ :: _, _ => rfl

end State

/-! ## Completeness -/

open State

/-- What the machine does with a row of tokens of a category. Behind an operand that can go on with a property it is
in the state for the tree, and behind the others in one that becomes this state when it closes what is open up to the
level of the category. Behind the items of an array or the fields of an object, the last one is still open. -/
def Category.IsRead (c : Category) (ts : List Token) (e : Expr) : Prop :=
  match c with
  | .suffixed | .primary => ∀ fs, run ⟨.operand, fs⟩ ts = .ok ⟨.continuation e, fs⟩
  | .items => ∀ fs, ∃ es last e' fs', e = .array (es ++ [last]) ∧
    run ⟨.firstItem, fs⟩ ts = .ok ⟨.continuation e', fs'⟩ ∧ close 0 e' fs' = (last, .array es :: fs)
  | .fields => ∀ fs, ∃ fields k last e' fs', e = .object (fields ++ [(k, last)]) ∧
    run ⟨.firstKey, fs⟩ ts = .ok ⟨.continuation e', fs'⟩ ∧ close 0 e' fs' = (last, .object fields k :: fs)
  | .or | .and | .equality | .relation | .unary => ∀ fs, Compatible c.level fs →
    ∃ e' fs', run ⟨.operand, fs⟩ ts = .ok ⟨.continuation e', fs'⟩ ∧
      ∀ n, n ≤ c.level → close n e' fs' = close n e fs

/-- Where nothing ends before an operand of the loosest level, an expression is read as a whole. -/
theorem Category.IsRead.close_zero (h : Category.or.IsRead ts e) (fs : List Frame) (hfs : Compatible 0 fs) :
    ∃ e' fs', run ⟨.operand, fs⟩ ts = .ok ⟨.continuation e', fs'⟩ ∧ close 0 e' fs' = (e, fs) := by
  obtain ⟨e', fs', hrun, hclose⟩ := h fs hfs
  exact ⟨e', fs', hrun, (hclose 0 (Nat.le_refl 0)).trans (close_of_compatible hfs (Nat.zero_le 3))⟩

/-- The operand of a level, where constructs that end before it are not open, is read as one of the next level. -/
theorem Category.IsRead.single (hd : c.tighter? = some d) (h : d.IsRead ts e) : c.IsRead ts e := by
  cases c with
  | or | and | equality | relation =>
    cases hd
    intro fs hfs
    obtain ⟨e', fs', hrun, hclose⟩ := h fs (hfs.mono (by decide))
    exact ⟨e', fs', hrun, fun n hn => hclose n (Nat.le_succ_of_le hn)⟩
  | unary =>
    cases hd
    exact fun fs _ => ⟨e, fs, h fs, fun _ _ => rfl⟩
  | suffixed =>
    cases hd
    exact h
  | primary | items | fields => cases hd

/-- Reading an operator closes the left operand and opens the right one. -/
theorem Category.IsRead.chain {left right : Expr} (ho : o ∈ c.operators) (hd : c.tighter? = some d)
    (hl : c.IsRead ts left) (hr : d.IsRead us right) : c.IsRead (ts ++ .operator o :: us) (.binary o left right) := by
  have hlevel := level_eq_of_mem_operators ho
  have hstep : ∀ {fs e' fs'}, Compatible c.level fs → (∀ n, n ≤ c.level → close n e' fs' = close n left fs) →
      step ⟨.continuation e', fs'⟩ (.operator o) = .ok ⟨.operand, .binary o left :: fs⟩ := by
    intro fs e' fs' hfs hclose
    have hle : c.level ≤ 3 := hlevel ▸ level_le o
    have hleft : close o.level e' fs' = (left, fs) := by
      rw [hlevel, hclose _ (Nat.le_refl _), close_of_compatible hfs hle]
    rw [step, continueOperand, hleft]
  have hbinary : ∀ {n fs}, n ≤ c.level → close n right (.binary o left :: fs) = close n (.binary o left right) fs := by
    intro n fs hn
    rw [close, if_pos (hlevel ▸ hn)]
  cases c with
  | or | and | equality | relation =>
    cases hd
    intro fs hfs
    obtain ⟨e', fs', hrun, hclose⟩ := hl fs hfs
    -- the operator stays open, and does not end before a right operand of the next level
    have hopen : Compatible (o.level + 1) (.binary o left :: fs) := Nat.lt_succ_self o.level
    rw [hlevel] at hopen
    obtain ⟨e'', fs'', hrun', hclose'⟩ := hr _ hopen
    refine ⟨e'', fs'', ?_, fun n hn => (hclose' n (Nat.le_succ_of_le hn)).trans (hbinary hn)⟩
    rw [run_append hrun, run, hstep hfs hclose]
    exact hrun'
  | unary | suffixed | primary | items | fields => cases ho

/-- The first item of an array is read as the others are. -/
theorem run_firstItem_of_ok (h : run ⟨.operand, .array [] :: fs⟩ ts = .ok ⟨.continuation e', fs'⟩) :
    run ⟨.firstItem, fs⟩ ts = .ok ⟨.continuation e', fs'⟩ := by
  cases ts with
  | nil => cases h
  | cons t ts =>
    have ht : t ≠ .rbracket := by
      rintro rfl
      cases h
    rw [run, step, if_neg ht]
    exact h

/-- The name of a field and its colon. -/
theorem run_field (hk : keyOf? t = some k) (fields : List (Text × Expr)) (fs : List Frame) (us : List Token) :
    run ⟨.key fields, fs⟩ (t :: .colon :: us) = run ⟨.operand, .object fields k :: fs⟩ us := by
  cases t with
  | string | ident | number =>
    cases hk
    rfl
  | lparen | rparen | lbracket | rbracket | lbrace | rbrace | comma | colon | dot | not | minus | operator => cases hk

theorem run_firstField (hk : keyOf? t = some k) (fs : List Frame) (us : List Token) :
    run ⟨.firstKey, fs⟩ (t :: .colon :: us) = run ⟨.operand, .object [] k :: fs⟩ us := by
  have ht : t ≠ .rbrace := by
    rintro rfl
    cases hk
  rw [← run_field hk, run, run, step, step, if_neg ht]

/-- What has a derivation is read. -/
theorem Derives.isRead (h : Derives c ts e) : c.IsRead ts e := by
  -- `IsRead` is about a row behind any open constructs, so no case has to know what is around it
  induction h with
  | single hd _ ih => exact ih.single hd
  | chain ho hd _ _ ihl ihr => exact ihl.chain ho hd ihr
  | not _ ih =>
    intro fs _
    obtain ⟨e', fs', hrun, hclose⟩ := ih (.not :: fs) (Nat.le_refl 4)
    exact ⟨e', fs', hrun, hclose⟩
  | neg _ ih =>
    intro fs _
    obtain ⟨e', fs', hrun, hclose⟩ := ih (.neg :: fs) (Nat.le_refl 4)
    exact ⟨e', fs', hrun, hclose⟩
  | member name _ ih =>
    intro fs
    rw [run_append (ih fs)]
    rfl
  | @index _ us e _ _ _ ih ihk =>
    intro fs
    obtain ⟨e', fs', hrun, hclose⟩ := ihk.close_zero (.index e :: fs) trivial
    rw [run_append (ih fs), run, step, continueOperand]
    dsimp only
    rw [run_append hrun, run, step, continueOperand, hclose]
    rfl
  | number x => exact fun _ => rfl
  | string t => exact fun _ => rfl
  | word h =>
    intro fs
    rw [run, step, beginOperand, operandOfName_of_mem h]
    rfl
  | ident h =>
    intro fs
    rw [run, step, beginOperand, operandOfName_of_notMem h]
    rfl
  | group _ ih =>
    intro fs
    obtain ⟨e', fs', hrun, hclose⟩ := ih.close_zero (.group :: fs) trivial
    rw [run, step, beginOperand]
    dsimp only
    rw [run_append hrun, run, step, continueOperand, hclose]
    rfl
  | noItems => exact fun _ => rfl
  | array _ ih =>
    intro fs
    obtain ⟨es, last, e', fs', rfl, hrun, hclose⟩ := ih fs
    rw [run, step, beginOperand]
    dsimp only
    rw [run_append hrun, run, step, continueOperand, hclose]
    rfl
  | noFields => exact fun _ => rfl
  | object _ ih =>
    intro fs
    obtain ⟨fields, k, last, e', fs', rfl, hrun, hclose⟩ := ih fs
    rw [run, step, beginOperand]
    dsimp only
    rw [run_append hrun, run, step, continueOperand, hclose]
    rfl
  | @item _ e _ ih =>
    intro fs
    obtain ⟨e', fs', hrun, hclose⟩ := ih.close_zero (.array [] :: fs) trivial
    exact ⟨[], e, e', fs', rfl, run_firstItem_of_ok hrun, hclose⟩
  | @items _ _ es e _ _ ih ihe =>
    intro fs
    obtain ⟨before, last, e', fs', hes, hrun, hclose⟩ := ih fs
    obtain rfl := Expr.array.inj hes
    obtain ⟨e'', fs'', hrun', hclose'⟩ := ihe.close_zero (.array (before ++ [last]) :: fs) trivial
    refine ⟨_, e, e'', fs'', rfl, ?_, hclose'⟩
    rw [run_append hrun, run, step, continueOperand, hclose]
    exact hrun'
  | @field _ k _ e hk _ ih =>
    intro fs
    obtain ⟨e', fs', hrun, hclose⟩ := ih.close_zero (.object [] k :: fs) trivial
    exact ⟨[], k, e, e', fs', rfl, (run_firstField hk fs _).trans hrun, hclose⟩
  | @fields _ k _ _ _ e _ hk _ ih ihe =>
    intro fs
    obtain ⟨before, j, last, e', fs', hfields, hrun, hclose⟩ := ih fs
    obtain rfl := Expr.object.inj hfields
    obtain ⟨e'', fs'', hrun', hclose'⟩ := ihe.close_zero (.object (before ++ [(j, last)]) k :: fs) trivial
    refine ⟨_, k, e, e'', fs'', rfl, ?_, hclose'⟩
    rw [run_append hrun, run, step, continueOperand, hclose]
    exact (run_field hk _ fs _).trans hrun'

/-- A row of tokens with a derivation is read as its tree. -/
theorem Derives.ofTokens (h : Derives .or ts e) : Expr.ofTokens ts = .ok e := by
  obtain ⟨e', fs', hrun, hclose⟩ := h.isRead.close_zero [] trivial
  have hstart : start.run ts = .ok ⟨.continuation e', fs'⟩ := hrun
  rw [Expr.ofTokens, hstart]
  dsimp only
  rw [finish, hclose]

/-! ## Soundness -/

/-- The tokens of constructs that are still open: what is complete in them has a derivation, and none of them ends
before the operator or the sign that follows it. -/
inductive Opened : List Token → List Frame → Prop
  | nil : Opened [] []
  | not {ts : List Token} {fs : List Frame} (h : Opened ts fs) : Opened (ts ++ [.not]) (.not :: fs)
  | neg {ts : List Token} {fs : List Frame} (h : Opened ts fs) : Opened (ts ++ [.minus]) (.neg :: fs)
  | binary {o : Operator} {ts us : List Token} {fs : List Frame} {left : Expr} (h : Opened ts fs)
    (hfs : Compatible o.level fs) (hl : Derives (.ofLevel o.level) us left) :
    Opened (ts ++ (us ++ [.operator o])) (.binary o left :: fs)
  | group {ts : List Token} {fs : List Frame} (h : Opened ts fs) : Opened (ts ++ [.lparen]) (.group :: fs)
  | index {ts us : List Token} {fs : List Frame} {target : Expr} (h : Opened ts fs) (ht : Derives .suffixed us target) :
    Opened (ts ++ (us ++ [.lbracket])) (.index target :: fs)
  | firstItem {ts : List Token} {fs : List Frame} (h : Opened ts fs) : Opened (ts ++ [.lbracket]) (.array [] :: fs)
  | item {ts us : List Token} {fs : List Frame} {es : List Expr} (h : Opened ts fs) (hes : Derives .items us (.array es)) :
    Opened (ts ++ .lbracket :: (us ++ [.comma])) (.array es :: fs)
  | firstField {ts : List Token} {fs : List Frame} {t : Token} {k : Text} (h : Opened ts fs) (hk : keyOf? t = some k) :
    Opened (ts ++ [.lbrace, t, .colon]) (.object [] k :: fs)
  | field {ts us : List Token} {fs : List Frame} {fields : List (Text × Expr)} {t : Token} {k : Text} (h : Opened ts fs)
    (hfields : Derives .fields us (.object fields)) (hk : keyOf? t = some k) :
    Opened (ts ++ .lbrace :: (us ++ [.comma, t, .colon])) (.object fields k :: fs)

/-- The tokens that have been read are those of the open constructs and of what is complete behind them. -/
def State.Explains : State → List Token → Prop
  | ⟨.operand, fs⟩, ts => Opened ts fs
  | ⟨.firstItem, fs⟩, ts => ∃ us, ts = us ++ [.lbracket] ∧ Opened us fs
  | ⟨.firstKey, fs⟩, ts => ∃ us, ts = us ++ [.lbrace] ∧ Opened us fs
  | ⟨.key fields, fs⟩, ts => ∃ us vs, ts = us ++ .lbrace :: (vs ++ [.comma]) ∧ Opened us fs ∧
    Derives .fields vs (.object fields)
  | ⟨.colon fields k, fs⟩, ts => Opened (ts ++ [.colon]) (.object fields k :: fs)
  | ⟨.property target, fs⟩, ts => ∃ us vs, ts = us ++ (vs ++ [.dot]) ∧ Opened us fs ∧ Derives .suffixed vs target
  | ⟨.continuation e, fs⟩, ts => ∃ us vs, ts = us ++ vs ∧ Opened us fs ∧ Derives .suffixed vs e

theorem compatible_four (fs : List Frame) : Compatible 4 fs := by
  match fs with
  | .not :: _ | .neg :: _ => exact Nat.le_refl 4
  | .binary o _ :: _ => exact Nat.lt_succ_of_le (level_le o)
  | [] | .group :: _ | .index _ :: _ | .array _ :: _ | .object _ _ :: _ => trivial

/-- Closing what ends before an operator gives a derivation on the level of the operator. -/
theorem Opened.derives_close (h : Opened ts fs) (he : Derives (.ofLevel m) us e) (hfs : Compatible m fs) (hm : m ≤ 4)
    (hn : n ≤ m) : ∃ ts' us', ts ++ us = ts' ++ us' ∧ Opened ts' (close n e fs).2 ∧ Compatible n (close n e fs).2 ∧
      Derives (.ofLevel n) us' (close n e fs).1 := by
  induction h generalizing us e m with
  | nil => exact ⟨[], us, rfl, .nil, trivial, he.loosen hn hm⟩
  | @not ts fs _ ih =>
    obtain rfl : m = 4 := Nat.le_antisymm hm hfs
    obtain ⟨ts', us', htext, hclose⟩ := ih (m := 4) (Derives.not he) (compatible_four fs) (Nat.le_refl 4) hn
    exact ⟨ts', us', by rw [← htext, List.append_assoc, List.singleton_append], hclose⟩
  | @neg ts fs _ ih =>
    obtain rfl : m = 4 := Nat.le_antisymm hm hfs
    obtain ⟨ts', us', htext, hclose⟩ := ih (m := 4) (Derives.neg he) (compatible_four fs) (Nat.le_refl 4) hn
    exact ⟨ts', us', by rw [← htext, List.append_assoc, List.singleton_append], hclose⟩
  | @binary o ts vs fs left hts hfs' hl ih =>
    have hlevel := level_le o
    rw [State.close]
    by_cases hle : n ≤ o.level
    · -- the operator binds at least as tight: its two operands are one for what follows
      have hright : Derives (.ofLevel (o.level + 1)) us e := he.loosen hfs hm
      have hboth := Derives.chain (Category.mem_operators_ofLevel o) (Category.tighter?_ofLevel hlevel) hl hright
      obtain ⟨ts', us', htext, hclose⟩ := ih hboth hfs' (by omega) hle
      rw [if_pos hle]
      refine ⟨ts', us', ?_, hclose⟩
      rw [← htext]
      simp only [List.append_assoc, List.singleton_append]
    · rw [if_neg hle]
      exact ⟨_, us, rfl, .binary hts hfs' hl, Nat.lt_of_not_le hle, he.loosen hn hm⟩
  | group h => exact ⟨_, us, rfl, .group h, trivial, he.loosen hn hm⟩
  | index h ht => exact ⟨_, us, rfl, .index h ht, trivial, he.loosen hn hm⟩
  | firstItem h => exact ⟨_, us, rfl, .firstItem h, trivial, he.loosen hn hm⟩
  | item h hes => exact ⟨_, us, rfl, .item h hes, trivial, he.loosen hn hm⟩
  | firstField h hk => exact ⟨_, us, rfl, .firstField h hk, trivial, he.loosen hn hm⟩
  | field h hfields hk => exact ⟨_, us, rfl, .field h hfields hk, trivial, he.loosen hn hm⟩

/-- What is complete in front of a closing sign is an expression of the loosest level. -/
theorem Opened.derives_close_zero (h : Opened ts fs) (he : Derives .suffixed us e) (hclose : close 0 e fs = (e', fs')) :
    ∃ ts' us', ts ++ us = ts' ++ us' ∧ Opened ts' fs' ∧ Derives .or us' e' := by
  have hunary : Derives (.ofLevel 4) us e := .single rfl he
  obtain ⟨ts', us', htext, hopened, -, hderives⟩ :=
    h.derives_close hunary (compatible_four fs) (Nat.le_refl 4) (Nat.zero_le 4)
  rw [hclose] at hopened hderives
  exact ⟨ts', us', htext, hopened, hderives⟩

/-- The items of an open array, with the one that a sign behind it completes. -/
theorem Opened.items_of_close {es : List Expr} (h : Opened ts fs) (he : Derives .suffixed us e)
    (hclose : close 0 e fs = (e', .array es :: fs')) :
    ∃ vs ws, ts ++ us = vs ++ .lbracket :: ws ∧ Opened vs fs' ∧ Derives .items ws (.array (es ++ [e'])) := by
  obtain ⟨ts', us', htext, hopened, hitem⟩ := h.derives_close_zero he hclose
  cases hopened with
  | @firstItem vs _ hrest => exact ⟨vs, us', by simp [htext], hrest, .item hitem⟩
  | @item vs ws _ _ hrest hes => exact ⟨vs, ws ++ .comma :: us', by simp [htext], hrest, .items hes hitem⟩

/-- The fields of an open object, with the one that a sign behind it completes. -/
theorem Opened.fields_of_close {fields : List (Text × Expr)} (h : Opened ts fs) (he : Derives .suffixed us e)
    (hclose : close 0 e fs = (e', .object fields k :: fs')) :
    ∃ vs ws, ts ++ us = vs ++ .lbrace :: ws ∧ Opened vs fs' ∧ Derives .fields ws (.object (fields ++ [(k, e')])) := by
  obtain ⟨ts', us', htext, hopened, hvalue⟩ := h.derives_close_zero he hclose
  cases hopened with
  | @firstField vs _ t _ hrest hk => exact ⟨vs, t :: .colon :: us', by simp [htext], hrest, .field hk hvalue⟩
  | @field vs ws _ _ t _ hrest hfields hk =>
    exact ⟨vs, ws ++ .comma :: t :: .colon :: us', by simp [htext], hrest, .fields hfields hk hvalue⟩

namespace State

/-- A complete primary expression behind the open constructs. -/
private theorem explains_primary (h : Opened ts fs) (he : Derives .primary us e) :
    Explains ⟨.continuation e, fs⟩ (ts ++ us) := ⟨ts, us, rfl, h, .single rfl he⟩

theorem explains_beginOperand (h : Opened ts fs) (hs : beginOperand fs t = .ok s) : s.Explains (ts ++ [t]) := by
  cases t with
  | number x =>
    cases hs
    exact explains_primary h (.number x)
  | string u =>
    cases hs
    exact explains_primary h (.string u)
  | ident name =>
    cases hs
    exact explains_primary h (derives_operandOfName name)
  | lparen =>
    cases hs
    exact .group h
  | lbracket =>
    cases hs
    exact ⟨ts, rfl, h⟩
  | lbrace =>
    cases hs
    exact ⟨ts, rfl, h⟩
  | not =>
    cases hs
    exact .not h
  | minus =>
    cases hs
    exact .neg h
  | rparen | rbracket | rbrace | comma | colon | dot | operator => cases hs

/-- A token that begins a field is its name. -/
theorem of_beginField {fields : List (Text × Expr)} (hs : beginField fields fs t = .ok s) :
    ∃ k, keyOf? t = some k ∧ s = ⟨.colon fields k, fs⟩ := by
  cases t with
  | string | ident | number =>
    cases hs
    exact ⟨_, rfl, rfl⟩
  | lparen | rparen | lbracket | rbracket | lbrace | rbrace | comma | colon | dot | not | minus | operator => cases hs

theorem explains_continueOperand (h : Opened ts fs) (he : Derives .suffixed us e)
    (hs : continueOperand e fs t = .ok s) : s.Explains (ts ++ us ++ [t]) := by
  rw [List.append_assoc]
  cases t with
  | dot =>
    cases hs
    exact ⟨ts, us, rfl, h, he⟩
  | lbracket =>
    cases hs
    exact .index h he
  | operator o =>
    cases hs
    have hunary : Derives (.ofLevel 4) us e := .single rfl he
    obtain ⟨ts', us', htext, hopened, hcompatible, hleft⟩ :=
      h.derives_close hunary (compatible_four fs) (Nat.le_refl 4) (Nat.le_succ_of_le (level_le o))
    have hexplained := Opened.binary hopened hcompatible hleft
    rwa [← List.append_assoc, ← htext, List.append_assoc] at hexplained
  | rparen =>
    rw [continueOperand] at hs
    split at hs
    · next inner rest hclose =>
      cases hs
      obtain ⟨ts', us', htext, hopened, hinner⟩ := h.derives_close_zero he hclose
      cases hopened with
      | @group vs _ hrest =>
        refine ⟨vs, _, ?_, hrest, .single rfl (.group hinner)⟩
        rw [← List.append_assoc, htext]
        simp
    · cases hs
  | rbracket =>
    rw [continueOperand] at hs
    split at hs
    · next key target rest hclose =>
      cases hs
      obtain ⟨ts', us', htext, hopened, hkey⟩ := h.derives_close_zero he hclose
      cases hopened with
      | @index vs ws _ _ hrest htarget =>
        refine ⟨vs, _, ?_, hrest, .index htarget hkey⟩
        rw [← List.append_assoc, htext]
        simp
    · next item es rest hclose =>
      cases hs
      obtain ⟨vs, ws, htext, hopened, hitems⟩ := h.items_of_close he hclose
      refine ⟨vs, _, ?_, hopened, .single rfl (.array hitems)⟩
      rw [← List.append_assoc, htext]
      simp
    · cases hs
  | rbrace =>
    rw [continueOperand] at hs
    split at hs
    · next value fields k rest hclose =>
      cases hs
      obtain ⟨vs, ws, htext, hopened, hfields⟩ := h.fields_of_close he hclose
      refine ⟨vs, _, ?_, hopened, .single rfl (.object hfields)⟩
      rw [← List.append_assoc, htext]
      simp
    · cases hs
  | comma =>
    rw [continueOperand] at hs
    split at hs
    · next item es rest hclose =>
      cases hs
      obtain ⟨vs, ws, htext, hopened, hitems⟩ := h.items_of_close he hclose
      have htokens : ts ++ (us ++ [.comma]) = vs ++ .lbracket :: (ws ++ [.comma]) := by
        rw [← List.append_assoc, htext]
        simp
      rw [htokens]
      exact Opened.item hopened hitems
    · next value fields k rest hclose =>
      cases hs
      obtain ⟨vs, ws, htext, hopened, hfields⟩ := h.fields_of_close he hclose
      refine ⟨vs, ws, ?_, hopened, hfields⟩
      rw [← List.append_assoc, htext]
      simp
    · cases hs
  | number | string | ident | lparen | lbrace | colon | not | minus => cases hs

/-- One token more is explained by the state that it leads to. -/
theorem Explains.step (h : s.Explains ts) (hs : s.step t = .ok s') : s'.Explains (ts ++ [t]) := by
  obtain ⟨expecting, fs⟩ := s
  -- what is expected decides which tokens there can be
  cases expecting with
  | operand => exact explains_beginOperand h hs
  | firstItem =>
    obtain ⟨us, rfl, hopened⟩ := h
    rw [State.step] at hs
    split at hs
    · next ht =>
      cases hs
      exact ⟨us, [.lbracket, .rbracket], by simp [ht], hopened, .single rfl .noItems⟩
    · exact explains_beginOperand (.firstItem hopened) hs
  | firstKey =>
    obtain ⟨us, rfl, hopened⟩ := h
    rw [State.step] at hs
    split at hs
    · next ht =>
      cases hs
      exact ⟨us, [.lbrace, .rbrace], by simp [ht], hopened, .single rfl .noFields⟩
    · obtain ⟨k, hk, rfl⟩ := of_beginField hs
      have hexplained := Opened.firstField hopened hk
      show Opened (us ++ [.lbrace] ++ [t] ++ [.colon]) (.object [] k :: fs)
      rwa [List.append_assoc, List.append_assoc]
  | key fields =>
    obtain ⟨us, vs, rfl, hopened, hfields⟩ := h
    obtain ⟨k, hk, rfl⟩ := of_beginField hs
    have hexplained := Opened.field hopened hfields hk
    show Opened (us ++ .lbrace :: (vs ++ [.comma]) ++ [t] ++ [.colon]) (.object fields k :: fs)
    simpa using hexplained
  | colon fields k =>
    rw [State.step] at hs
    split at hs
    · next ht =>
      cases hs
      rw [ht]
      exact h
    · cases hs
  | property target =>
    obtain ⟨us, vs, rfl, hopened, htarget⟩ := h
    cases t with
    | ident name =>
      cases hs
      exact ⟨us, _, by simp, hopened, .member name htarget⟩
    | number | string | lparen | rparen | lbracket | rbracket | lbrace | rbrace | comma | colon | dot | not | minus |
      operator => cases hs
  | continuation e =>
    obtain ⟨us, vs, rfl, hopened, he⟩ := h
    exact explains_continueOperand hopened he hs

/-- All tokens that have been read are explained. -/
theorem Explains.run (h : s.Explains ts) (hs : s.run us = .ok s') : s'.Explains (ts ++ us) := by
  induction us generalizing s ts with
  | nil =>
    cases hs
    rwa [List.append_nil]
  | cons u us ih =>
    rw [State.run] at hs
    split at hs
    · next s₁ hstep =>
      have hrest := ih (h.step hstep) hs
      rwa [List.append_assoc, List.singleton_append] at hrest
    · cases hs

/-- An expression that is complete has a derivation from all of the tokens. -/
theorem Explains.finish (h : s.Explains ts) (hs : s.finish = .ok e) : Derives .or ts e := by
  obtain ⟨expecting, fs⟩ := s
  cases expecting with
  | continuation operand =>
    obtain ⟨us, vs, rfl, hopened, hoperand⟩ := h
    rw [State.finish] at hs
    split at hs
    · next e' hclose =>
      cases hs
      obtain ⟨ts', us', htext, hopened', he⟩ := hopened.derives_close_zero hoperand hclose
      cases hopened'
      rw [htext]
      exact he
    · cases hs
  | operand | firstItem | firstKey | key | colon | property => cases hs

end State

/-- What is read has a derivation. -/
theorem Derives.of_ofTokens (h : Expr.ofTokens ts = .ok e) : Derives .or ts e := by
  rw [Expr.ofTokens] at h
  split at h
  · next s hrun =>
    have hstart : start.Explains [] := Opened.nil
    exact (hstart.run hrun).finish h
  · cases h

end Pagewright.Condition
