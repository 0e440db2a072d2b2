import Pagewright.Proofs.Condition.Literal

/-!
# What a literal means

The tokens of a literal are read as a tree (`State.reads_literal`), and the tree has a value in every scope
(`eval_literal`). The value is not always the one that was written: all numbers of a condition are
floating-point numbers, and one that becomes part of an array or an object stays one there (`reread`). So the
literal of a value equals the value just if it is no array and no object or has no whole number anywhere in it
(`isExact`, `strictEquals_reread`), and that is what a condition answers that compares a field with its own
literal (`evaluate_literal`). The array of the number one is a field that does not equal itself
(`evaluate_wholeItem`).
-/

namespace Pagewright.Condition

variable {v : Json} {s s' : State} {ts us : List Token} {e e' : Expr} {fs fs' : List Frame}

/-! ## The tree of a literal -/

/-- The tree of a number: a negative one is a negation. -/
def numberExpr : Number → Expr
  | .int i => if i < 0 then .neg (.number (.ofInt i.natAbs)) else .number (.ofInt i.natAbs)
  | .real (.finite s m e) => if s then .neg (.number (.finite false m e)) else .number (.finite false m e)
  | .real _ => .null

mutual

/-- The tree of the literal of a value. -/
def literalExpr : Json → Expr
  | .null => .null
  | .bool b => .bool b
  | .number k => numberExpr k
  | .string t => .string t
  | .array items => .array (itemExprs items)
  | .object fields => .object (fieldExprs fields)

/-- The trees of the items of an array. -/
def itemExprs : List Json → List Expr
  | [] => []
  | v :: rest => literalExpr v :: itemExprs rest

/-- The trees of the fields of an object. -/
def fieldExprs : List (Text × Json) → List (Text × Expr)
  | [] => []
  | (k, v) :: rest => (k, literalExpr v) :: fieldExprs rest

end

namespace State

/-- The tokens are read as an operand. A minus sign can be open behind the operand, but whatever comes next
closes it, so nothing can tell it from the tree. -/
def Reads (ts : List Token) (e : Expr) : Prop :=
  ∀ fs, ∃ e' fs', run ⟨.operand, fs⟩ ts = .ok ⟨.continuation e', fs'⟩ ∧
    ∀ level, close level e' fs' = close level e fs

theorem Reads.of_begin {t : Token} (h : ∀ fs, beginOperand fs t = .ok ⟨.continuation e, fs⟩) : Reads [t] e := by
  intro fs
  refine ⟨e, fs, ?_, fun _ => rfl⟩
  rw [run, step, h]
  rfl

theorem reads_number (k : Number) : Reads (numberTokens k) (numberExpr k) := by
  have hminus : ∀ x, Reads [.minus, .number x] (.neg (.number x)) := fun x fs =>
    ⟨.number x, .neg :: fs, rfl, fun _ => rfl⟩
  match k with
  | .int i =>
    by_cases hi : i < 0
    · rw [numberTokens, numberExpr, if_pos hi, if_pos hi]
      exact hminus _
    · rw [numberTokens, numberExpr, if_neg hi, if_neg hi]
      exact .of_begin fun _ => rfl
  | .real (.finite true m e) => exact hminus _
  | .real (.finite false m e) => exact .of_begin fun _ => rfl
  | .real .nan => exact .of_begin fun _ => rfl
  | .real (.infinite _) => exact .of_begin fun _ => rfl

/-- A literal does not begin with a closing sign. -/
theorem literalTokens_eq_cons (v : Json) : ∃ t ts, literalTokens v = t :: ts ∧ t ≠ .rbracket := by
  match v with
  | .null | .bool _ | .string _ | .array _ | .object _ => exact ⟨_, _, rfl, fun h => by cases h⟩
  | .number (.int i) =>
    by_cases hi : i < 0
    · rw [literalTokens, numberTokens, if_pos hi]
      exact ⟨_, _, rfl, fun h => by cases h⟩
    · rw [literalTokens, numberTokens, if_neg hi]
      exact ⟨_, _, rfl, fun h => by cases h⟩
  | .number (.real (.finite true _ _)) => exact ⟨_, _, rfl, fun h => by cases h⟩
  | .number (.real (.finite false _ _)) => exact ⟨_, _, rfl, fun h => by cases h⟩
  | .number (.real .nan) => exact ⟨_, _, rfl, fun h => by cases h⟩
  | .number (.real (.infinite _)) => exact ⟨_, _, rfl, fun h => by cases h⟩

/-- The first item of an array is read as the others are. -/
theorem run_firstItem (v : Json) (us : List Token) (fs : List Frame) :
    run ⟨.firstItem, fs⟩ (literalTokens v ++ us) = run ⟨.operand, .array [] :: fs⟩ (literalTokens v ++ us) := by
  obtain ⟨t, ts, hts, ht⟩ := literalTokens_eq_cons v
  rw [hts, List.cons_append, run, run, step, step, if_neg ht]

theorem itemTokens_cons (v : Json) (rest : List Json) :
    ∃ us, itemTokens (v :: rest) = literalTokens v ++ us := by
  cases rest with
  | nil => exact ⟨[], (List.append_nil _).symm⟩
  | cons w rest => exact ⟨_, rfl⟩

mutual

/-- The literal of a value is read as its tree. -/
theorem reads_literal (v : Json) : Reads (literalTokens v) (literalExpr v) := by
  match v with
  | .null => exact .of_begin fun _ => rfl
  | .bool true => exact .of_begin fun _ => rfl
  | .bool false => exact .of_begin fun _ => rfl
  | .number k => exact reads_number k
  | .string t => exact .of_begin fun _ => rfl
  | .array [] => exact fun fs => ⟨_, _, rfl, fun _ => rfl⟩
  | .array (w :: rest) =>
    intro fs
    refine ⟨_, _, ?_, fun _ => rfl⟩
    obtain ⟨us, hus⟩ := itemTokens_cons w rest
    have hfirst : run ⟨.operand, fs⟩ (literalTokens (.array (w :: rest))) =
        run ⟨.firstItem, fs⟩ (itemTokens (w :: rest) ++ [.rbracket]) := rfl
    rw [hfirst, hus, List.append_assoc, run_firstItem, ← List.append_assoc, ← hus]
    exact run_items (w :: rest) (by simp) [] fs
  | .object [] => exact fun fs => ⟨_, _, rfl, fun _ => rfl⟩
  | .object ((k, w) :: rest) =>
    intro fs
    refine ⟨_, _, ?_, fun _ => rfl⟩
    have hfirst : run ⟨.operand, fs⟩ (literalTokens (.object ((k, w) :: rest))) =
        run ⟨.key [], fs⟩ (fieldTokens ((k, w) :: rest) ++ [.rbrace]) := by
      cases rest <;> rfl
    rw [hfirst]
    exact run_fields ((k, w) :: rest) (by simp) [] fs

/-- The items of an array are read up to its end. -/
theorem run_items (items : List Json) (hne : items ≠ []) (done : List Expr) (fs : List Frame) :
    run ⟨.operand, .array done :: fs⟩ (itemTokens items ++ [.rbracket]) =
      .ok ⟨.continuation (.array (done ++ itemExprs items)), fs⟩ := by
  match items with
  | [v] =>
    obtain ⟨e', fs', hrun, hclose⟩ := reads_literal v (.array done :: fs)
    have hzero : close 0 e' fs' = (literalExpr v, .array done :: fs) := hclose 0
    rw [itemTokens, run_append hrun, run, step, continueOperand, hzero]
    rfl
  | v :: w :: rest =>
    obtain ⟨e', fs', hrun, hclose⟩ := reads_literal v (.array done :: fs)
    have hzero : close 0 e' fs' = (literalExpr v, .array done :: fs) := hclose 0
    have hitems := run_items (w :: rest) (by simp) (done ++ [literalExpr v]) fs
    rw [itemTokens, List.append_assoc, run_append hrun, List.cons_append, run, step, continueOperand, hzero]
    rw [List.append_assoc] at hitems
    exact hitems

/-- The fields of an object are read up to its end. -/
theorem run_fields (fields : List (Text × Json)) (hne : fields ≠ []) (done : List (Text × Expr))
    (fs : List Frame) :
    run ⟨.key done, fs⟩ (fieldTokens fields ++ [.rbrace]) =
      .ok ⟨.continuation (.object (done ++ fieldExprs fields)), fs⟩ := by
  match fields with
  | [(k, v)] =>
    obtain ⟨e', fs', hrun, hclose⟩ := reads_literal v (.object done k :: fs)
    have hzero : close 0 e' fs' = (literalExpr v, .object done k :: fs) := hclose 0
    have hkey : run ⟨.key done, fs⟩ (.string k :: .colon :: literalTokens v) =
      .ok ⟨.continuation e', fs'⟩ := hrun
    rw [fieldTokens, run_append hkey, run, step, continueOperand, hzero]
    rfl
  | (k, v) :: f :: rest =>
    obtain ⟨e', fs', hrun, hclose⟩ := reads_literal v (.object done k :: fs)
    have hzero : close 0 e' fs' = (literalExpr v, .object done k :: fs) := hclose 0
    have hkey : run ⟨.key done, fs⟩ (.string k :: .colon :: literalTokens v) =
      .ok ⟨.continuation e', fs'⟩ := hrun
    have hfields := run_fields (f :: rest) (by simp) (done ++ [(k, literalExpr v)]) fs
    rw [fieldTokens, List.append_assoc, run_append hkey, List.cons_append, run, step, continueOperand, hzero]
    rw [List.append_assoc] at hfields
    exact hfields

end

end State

/-! ## The value of a literal -/

mutual

/-- The value that the literal of a value has: numbers are read as floating-point numbers. -/
def reread : Json → Operand
  | .null => .null
  | .bool b => .bool b
  | .number k => .number k.toReal
  | .string t => .string t
  | .array items => .array (rereadItems items)
  | .object fields => .object (rereadFields fields)

/-- The items of an array as they are read again. -/
def rereadItems : List Json → List Json
  | [] => []
  | v :: rest => (reread v).toJson :: rereadItems rest

/-- The fields of an object as they are read again. -/
def rereadFields : List (Text × Json) → List (Text × Json)
  | [] => []
  | (k, v) :: rest => (k, (reread v).toJson) :: rereadFields rest

end

theorem keys_rereadFields (fields : List (Text × Json)) :
    (rereadFields fields).map Prod.fst = fields.map Prod.fst := by
  induction fields with
  | nil => rfl
  | cons f rest ih =>
    obtain ⟨k, v⟩ := f
    simp only [rereadFields, List.map_cons, ih]

theorem ascending_rereadFields {fields : Fields} (h : Fields.Ascending fields) :
    Fields.Ascending (rereadFields fields) := by
  have hkeys : ∀ fields : Fields, Fields.Ascending fields ↔
      (fields.map Prod.fst).Pairwise fun k l => Text.compare k l = .lt := fun fields => by
    rw [Fields.Ascending, List.pairwise_map]
  rw [hkeys, keys_rereadFields, ← hkeys]
  exact h

theorem eval_number {k : Number} (hk : k.Valid) (context : Fields) :
    (numberExpr k).eval context = .ok (.number k.toReal) := by
  match k with
  | .int i =>
    by_cases hi : i < 0
    · rw [numberExpr, if_pos hi]
      exact congrArg (fun x => Except.ok (Operand.number x)) (Binary64.neg_ofInt hi)
    · have habs : (i.natAbs : Int) = i := by omega
      rw [numberExpr, if_neg hi, habs]
      rfl
  | .real (.finite true m e) => rfl
  | .real (.finite false m e) => rfl

mutual

/-- The value of a literal. -/
theorem eval_literal (v : Json) (hv : v.Valid) (context : Fields) :
    (literalExpr v).eval context = .ok (reread v) := by
  match v with
  | .null | .bool _ | .string _ => rfl
  | .number k => exact eval_number hv context
  | .array items =>
    have hitems := eval_items items hv context
    rw [literalExpr, Expr.eval, hitems]
    rfl
  | .object fields =>
    have hfields := eval_fields fields hv.2 context
    have hsame := Fields.ofList_of_ascending (ascending_rereadFields hv.1)
    rw [literalExpr, Expr.eval, hfields]
    exact congrArg (fun fields => Except.ok (Operand.object fields)) hsame

theorem eval_items (items : List Json) (hv : Json.ValidItems items) (context : Fields) :
    Expr.evalItems context (itemExprs items) = .ok (rereadItems items) := by
  match items with
  | [] => rfl
  | v :: rest =>
    rw [itemExprs, Expr.evalItems, eval_literal v hv.1 context, eval_items rest hv.2 context]
    rfl

theorem eval_fields (fields : List (Text × Json)) (hv : Json.ValidFields fields) (context : Fields) :
    Expr.evalFields context (fieldExprs fields) = .ok (rereadFields fields) := by
  match fields with
  | [] => rfl
  | (k, v) :: rest =>
    rw [fieldExprs, Expr.evalFields, eval_literal v hv.1 context, eval_fields rest hv.2 context]
    rfl

end

/-! ## Equality -/

theorem strictEquals_comm (a b : Operand) : a.strictEquals b = b.strictEquals a := by
  cases a <;> cases b <;> try rfl
  · exact Bool.beq_comm
  · exact Binary64.equals_comm _ _
  · exact Bool.beq_comm
  · exact Json.sameItems_comm _ _
  · exact Json.sameFields_comm _ _

mutual

/-- A value that is read again as an item or a field is the same just if it holds no whole number. -/
theorem same_reread (v : Json) (hv : v.Valid) : v.same (reread v).toJson = v.isWholeFree := by
  match v with
  | .null => rfl
  | .bool b => exact beq_self_eq_true b
  | .number (.int i) =>
    rw [reread, Operand.toJson]
    split <;> rfl
  | .number (.real (.finite s m e)) => exact Binary64.equals_self (by simp)
  | .string t => exact beq_self_eq_true t
  | .array items => exact sameItems_reread items hv
  | .object fields => exact sameFields_reread fields hv.2

theorem sameItems_reread (items : List Json) (hv : Json.ValidItems items) :
    Json.sameItems items (rereadItems items) = Json.isWholeFreeItems items := by
  match items with
  | [] => rfl
  | v :: rest =>
    rw [rereadItems, Json.sameItems, same_reread v hv.1, sameItems_reread rest hv.2, Json.isWholeFreeItems]

theorem sameFields_reread (fields : List (Text × Json)) (hv : Json.ValidFields fields) :
    Json.sameFields fields (rereadFields fields) = Json.isWholeFreeFields fields := by
  match fields with
  | [] => rfl
  | (k, v) :: rest =>
    rw [rereadFields, Json.sameFields, same_reread v hv.1, sameFields_reread rest hv.2, beq_self_eq_true,
      Bool.true_and, Json.isWholeFreeFields]

end

/-- A literal is exact when its value equals the one it was written for: numbers by themselves always do, but
a whole number in an array or an object becomes a floating-point number there, and never equals one. -/
def isExact (v : Json) : Bool := !v.isCompound || v.isWholeFree

theorem strictEquals_reread (v : Json) (hv : v.Valid) :
    (Operand.ofJson v).strictEquals (reread v) = isExact v := by
  match v with
  | .null => rfl
  | .bool b => exact beq_self_eq_true b
  | .number (.int i) => exact Binary64.equals_self (Binary64.ofInt_ne_nan i)
  | .number (.real (.finite s m e)) => exact Binary64.equals_self (by simp [Number.toReal])
  | .string t => exact beq_self_eq_true t
  | .array items => exact sameItems_reread items hv
  | .object fields => exact sameFields_reread fields hv.2

/-! ## Conditions that compare a value with its literal -/

section Literal

variable {scope : Fields} {scopeName name : Text}

/-- A name that can be asked for in a condition: the names of values are taken. -/
def IsField (name : Text) : Prop :=
  Token.IsName name ∧ name ∉ ["true".toList, "false".toList, "null".toList, "undefined".toList]

theorem operandOfName_of_isField (h : IsField name) : State.operandOfName name = .ident name := by
  have hne := h.2
  simp only [List.mem_cons, List.not_mem_nil, or_false, not_or] at hne
  rw [State.operandOfName, if_neg hne.1, if_neg hne.2.1, if_neg hne.2.2.1, if_neg hne.2.2.2]

/-- A field of the scope is in the context, before the scope itself under its name. -/
theorem get?_contextOf (hscope : scope.Ascending) (hv : Fields.get? name scope = some v) :
    Fields.get? name (contextOf scope scopeName) = some v := by
  rw [contextOf, Fields.get?_foldl_insert hscope, hv]
  rfl

/-- The sign of equality between two texts, with blanks around it. -/
theorem scanFrom_equals {t t' : Text} (ht : ∀ n, Token.scanFrom n t = .ok ts)
    (ht' : ∀ n, Token.scanFrom n t' = .ok us) (n : Nat) :
    Token.scanFrom n (t ++ " === ".toList ++ t') = .ok (ts ++ .operator .strictEq :: us) := by
  have hseam : Token.Seam (' ' :: '=' :: '=' :: '=' :: ' ' :: t') := Token.seam_cons.2 (by decide)
  have hblank : Text.isBlank ' ' = true := rfl
  have hnext : ∀ n, Token.next n '=' ('=' :: '=' :: ' ' :: t') = .ok (.operator .strictEq, ' ' :: t') :=
    fun _ => rfl
  have htext : t ++ " === ".toList ++ t' = t ++ ' ' :: '=' :: '=' :: '=' :: ' ' :: t' := by simp
  rw [htext, Token.scanFrom_append hseam (ht n), Token.scanFrom_blank hblank,
    Token.scanFrom_next rfl (hnext _), Token.scanFrom_blank hblank, ht']
  rfl

private theorem run_ident (hname : IsField name) (fs : List Frame) :
    State.run ⟨.operand, fs⟩ [.ident name] = .ok ⟨.continuation (.ident name), fs⟩ := by
  rw [State.run, State.step, State.beginOperand, operandOfName_of_isField hname]
  rfl

theorem ofTokens_field_equals (hname : IsField name) (v : Json) :
    Expr.ofTokens ([.ident name] ++ .operator .strictEq :: literalTokens v) =
      .ok (.binary .strictEq (.ident name) (literalExpr v)) := by
  obtain ⟨e', fs', hrun, hclose⟩ := State.reads_literal v [.binary .strictEq (.ident name)]
  have hzero : State.close 0 e' fs' = (.binary .strictEq (.ident name) (literalExpr v), []) := hclose 0
  have hall : State.start.run ([.ident name] ++ .operator .strictEq :: literalTokens v) =
      .ok ⟨.continuation e', fs'⟩ := (State.run_append (run_ident hname []) _).trans hrun
  rw [Expr.ofTokens, hall]
  dsimp only
  rw [State.finish, hzero]

theorem ofTokens_equals_field (hname : IsField name) (v : Json) :
    Expr.ofTokens (literalTokens v ++ .operator .strictEq :: [.ident name]) =
      .ok (.binary .strictEq (literalExpr v) (.ident name)) := by
  obtain ⟨e', fs', hrun, hclose⟩ := State.reads_literal v []
  have hlevel : State.close 2 e' fs' = (literalExpr v, []) := hclose 2
  have hsign : State.step ⟨.continuation e', fs'⟩ (.operator .strictEq) =
      .ok ⟨.operand, [.binary .strictEq (literalExpr v)]⟩ := by
    rw [State.step, State.continueOperand]
    dsimp only [Operator.level]
    rw [hlevel]
  have hall : State.start.run (literalTokens v ++ .operator .strictEq :: [.ident name]) =
      .ok ⟨.continuation (.ident name), [.binary .strictEq (literalExpr v)]⟩ := by
    refine (State.run_append hrun _).trans ?_
    rw [State.run, hsign]
    exact run_ident hname _
  rw [Expr.ofTokens, hall]
  rfl

theorem evaluate_eq {t : Text} {a : Operand} (hscan : Token.scan t = .ok ts)
    (htree : Expr.ofTokens ts = .ok e) (heval : e.eval (contextOf scope scopeName) = .ok a) :
    evaluate t scope scopeName = .ok a.isTruthy := by
  rw [evaluate, hscan]
  show (Expr.ofTokens ts >>= fun e => e.eval (contextOf scope scopeName) >>= fun v => pure v.isTruthy) = _
  rw [htree]
  show (e.eval (contextOf scope scopeName) >>= fun v => pure v.isTruthy) = _
  rw [heval]
  rfl

private theorem eval_field (hscope : scope.Ascending) (hget : Fields.get? name scope = some v) :
    (Expr.ident name).eval (contextOf scope scopeName) = .ok (.ofJson v) := by
  rw [Expr.eval, get?_contextOf hscope hget]

/-- A field is compared with the literal of its value. -/
theorem evaluate_field_equals (hv : v.Valid) (hscope : scope.Ascending) (hname : IsField name)
    (hget : Fields.get? name scope = some v) :
    evaluate (name ++ " === ".toList ++ literal v) scope scopeName = .ok (isExact v) := by
  have hscan : Token.scan (name ++ " === ".toList ++ literal v) =
      .ok ([.ident name] ++ .operator .strictEq :: literalTokens v) :=
    scanFrom_equals (Token.scanFrom_name hname.1) (Token.scanFrom_compact v hv) 0
  have heval : (Expr.binary .strictEq (.ident name) (literalExpr v)).eval (contextOf scope scopeName) =
      .ok (.bool (isExact v)) := by
    rw [Expr.eval, eval_field hscope hget, eval_literal v hv, ← strictEquals_reread v hv]
    rfl
  exact evaluate_eq hscan (ofTokens_field_equals hname v) heval

/-- The literal of the value of a field is compared with the field. -/
theorem evaluate_equals_field (hv : v.Valid) (hscope : scope.Ascending) (hname : IsField name)
    (hget : Fields.get? name scope = some v) :
    evaluate (literal v ++ " === ".toList ++ name) scope scopeName = .ok (isExact v) := by
  have hscan : Token.scan (literal v ++ " === ".toList ++ name) =
      .ok (literalTokens v ++ .operator .strictEq :: [.ident name]) :=
    scanFrom_equals (Token.scanFrom_compact v hv) (Token.scanFrom_name hname.1) 0
  have heval : (Expr.binary .strictEq (literalExpr v) (.ident name)).eval (contextOf scope scopeName) =
      .ok (.bool (isExact v)) := by
    rw [Expr.eval, eval_field hscope hget, eval_literal v hv, ← strictEquals_reread v hv, strictEquals_comm]
    rfl
  exact evaluate_eq hscan (ofTokens_equals_field hname v) heval

/-- The only placeholder of the condition becomes the literal of the value. -/
theorem inlinePlaceholders_hole_equals (hname : IsField name) (hget : Fields.get? name scope = some v) :
    inlinePlaceholders scopeName scope (hole scopeName name ++ " === ".toList ++ name) =
      literal v ++ " === ".toList ++ name := by
  have hne : name ≠ [] := by
    obtain ⟨c, r, rfl, -⟩ := hname.1
    simp
  have hpath : ∀ c ∈ name, Placeholder.isPathChar c := by
    intro c hc
    have hchar := hname.1.isNameChar_of_mem hc
    have hend : c ≠ '\x7d' ∧ c ≠ '|' := by
      constructor <;> rintro rfl <;> exact absurd hchar (by decide)
    have hblank := Token.isBlank_of_isNameChar hchar
    simp [Placeholder.isPathChar, hend, hblank]
  have hlookup : Fields.lookup? scope name = some v := by
    rw [Fields.lookup?, hget]
  have hpost : '\x7b' ∉ " === ".toList ++ name := by
    rw [List.mem_append, not_or]
    exact ⟨by decide, fun h => absurd (hname.1.isNameChar_of_mem h) (by decide)⟩
  have h : inlinePlaceholders scopeName scope ([] ++ hole scopeName name ++ (" === ".toList ++ name)) =
      [] ++ literal v ++ (" === ".toList ++ name) :=
    inlinePlaceholders_hole hne hpath hlookup (by simp) hpost
  rw [List.nil_append, List.nil_append] at h
  rw [List.append_assoc, List.append_assoc, h]

/-- A field is compared with the literal of its value, written out or put in for a placeholder. Both
conditions have a value, and it is true just if the literal is exact. -/
theorem evaluate_literal (hv : v.Valid) (hscope : scope.Ascending) (hname : IsField name)
    (hget : Fields.get? name scope = some v) :
    evaluate (name ++ " === ".toList ++ literal v) scope scopeName = .ok (isExact v) ∧
      evaluate (inlinePlaceholders scopeName scope (hole scopeName name ++ " === ".toList ++ name)) scope
        scopeName = .ok (isExact v) := by
  rw [inlinePlaceholders_hole_equals hname hget]
  exact ⟨evaluate_field_equals hv hscope hname hget, evaluate_equals_field hv hscope hname hget⟩

private theorem isField_x : IsField ['x'] :=
  ⟨⟨'x', [], rfl, by decide, by simp⟩, by decide⟩

/-- An array of an object with a string and a value that is no number. -/
theorem evaluate_literal_nested :
    let v : Json := .array [.object [(['k'], .string ['\"'])], .null]
    evaluate ("x === ".toList ++ literal v) [(['x'], v)] ['a'] = .ok true ∧
      evaluate (inlinePlaceholders ['a'] [(['x'], v)] "\x7ba.x\x7d === x".toList) [(['x'], v)] ['a'] = .ok true := by
  intro v
  have hv : v.Valid := by simp [v, Json.Valid, Json.ValidItems, Json.ValidFields, Fields.Ascending]
  have hscope : Fields.Ascending [(['x'], v)] := List.pairwise_singleton _ _
  exact evaluate_literal hv hscope isField_x rfl

/-- A whole number in an array does not equal the number that its literal has there. -/
theorem evaluate_wholeItem :
    let v : Json := .array [.number (.int 1)]
    v.Valid ∧ Fields.Ascending [(['x'], v)] ∧ IsField ['x'] ∧ Fields.get? ['x'] [(['x'], v)] = some v ∧
      literal v = "[1]".toList ∧ evaluate "x === [1]".toList [(['x'], v)] ['a'] = .ok false := by
  intro v
  have hv : v.Valid := by simp [v, Json.Valid, Json.ValidItems, Number.Valid]
  have hscope : Fields.Ascending [(['x'], v)] := List.pairwise_singleton _ _
  have hliteral : literal v = "[1]".toList := by
    rw [literal, Json.compact]
    decide
  have hfalse : evaluate (['x'] ++ " === ".toList ++ literal v) [(['x'], v)] ['a'] = .ok (isExact v) :=
    evaluate_field_equals hv hscope isField_x rfl
  rw [hliteral] at hfalse
  exact ⟨hv, hscope, isField_x, rfl, hliteral, hfalse⟩

end Literal

end Pagewright.Condition
