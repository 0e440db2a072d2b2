import Pagewright.Proofs.Condition.Scan
import Pagewright.Proofs.Json.Fields
import Pagewright.Condition.Eval

/-!
# Conditions without strings

Strings come into the value of a condition from quoted texts and from the scope only. Where neither of them has any,
no value is a string or holds one. This is followed here through the scanner (`Token.isStringless_of_scanFrom`), through
the reading machine, one lemma for each kind of step (`State.IsStringless.run`), and through the evaluation
(`Expr.IsStringless.eval`).
-/

namespace Pagewright

/-! ## Values -/

/-- A value without a string anywhere in it; the names of fields do not count. -/
inductive Json.IsStringless : Json → Prop
  | null : IsStringless .null
  | bool (b : Bool) : IsStringless (.bool b)
  | number (n : Number) : IsStringless (.number n)
  | array {items : List Json} (h : ∀ v ∈ items, IsStringless v) : IsStringless (.array items)
  | object {fields : Fields} (h : ∀ name v, fields.get? name = some v → IsStringless v) : IsStringless (.object fields)

/-- Fields whose values have no strings. -/
def Fields.IsStringless (fields : Fields) : Prop := ∀ name v, get? name fields = some v → v.IsStringless

theorem Fields.isStringless_of_forall_mem {fields : Fields} (h : ∀ f ∈ fields, f.2.IsStringless) :
    fields.IsStringless := by
  intro name v hv
  induction fields with
  | nil => cases hv
  | cons f fields ih =>
    obtain ⟨hf, hrest⟩ := List.forall_mem_cons.1 h
    rw [get?] at hv
    split at hv
    · obtain rfl := Option.some.inj hv
      exact hf
    · exact ih hrest hv

theorem Fields.IsStringless.insert {fields : Fields} {v : Json} (h : fields.IsStringless) (hv : v.IsStringless)
    (k : Text) : (fields.insert k v).IsStringless := by
  intro name w hw
  rw [get?_insert] at hw
  split at hw
  · obtain rfl := Option.some.inj hw
    exact hv
  · exact h name w hw

theorem Fields.IsStringless.foldl_insert {l : List (Text × Json)} (hl : ∀ f ∈ l, f.2.IsStringless) {fields : Fields}
    (h : fields.IsStringless) :
    Fields.IsStringless (l.foldl (fun fields (k, v) => Fields.insert k v fields) fields) := by
  induction l generalizing fields with
  | nil => exact h
  | cons f l ih =>
    obtain ⟨hf, hl⟩ := List.forall_mem_cons.1 hl
    exact ih hl (h.insert hf f.1)

namespace Condition

variable {c : Char} {n : Nat} {s rest : Text} {v : Json} {context : Fields} {token : Token} {ts : List Token}
  {e : Expr} {fs : List Frame} {st st' : State} {a : Operand}

/-- The values of conditions that are no strings and hold none. -/
def Operand.IsStringless : Operand → Prop
  | string _ => False
  | array items => ∀ v ∈ items, v.IsStringless
  | object fields => fields.IsStringless
  | undefined | null | bool _ | number _ => True

namespace Operand

theorem isStringless_ofJson (h : v.IsStringless) : (ofJson v).IsStringless := by
  cases h with
  | null | bool | number => trivial
  | array h => exact h
  | object h => exact h

theorem IsStringless.toJson (h : a.IsStringless) : a.toJson.IsStringless := by
  cases a with
  | string t => exact h.elim
  | undefined | null => exact .null
  | bool b => exact .bool b
  | number x =>
    show (if x.isFinite then Json.number (.real x) else .null).IsStringless
    split
    · exact .number _
    · exact .null
  | array items => exact .array h
  | object fields => exact .object h

/-- A property of a value without strings has none: only strings have characters. -/
theorem IsStringless.property {b : Operand} {name : Text} (h : a.IsStringless) (hb : a.property name = .ok b) :
    b.IsStringless := by
  have hfound : ∀ x : Option Json, (∀ v, x = some v → v.IsStringless) →
      ((x.map ofJson).getD undefined).IsStringless := by
    intro x hx
    cases x with
    | none => trivial
    | some v => exact isStringless_ofJson (hx v rfl)
  cases a with
  | string t => exact h.elim
  | undefined | null => cases hb
  | bool | number =>
    cases hb
    trivial
  | object fields =>
    cases hb
    exact hfound _ fun v hv => h name v hv
  | array items =>
    unfold Operand.property at hb
    dsimp only at hb
    split at hb
    · cases hb
      trivial
    · split at hb
      · next i =>
        cases hb
        exact hfound _ fun v hv => h v (List.mem_of_getElem? hv)
      · cases hb
        trivial

/-- Nothing without strings is the same as a literal. -/
theorem IsStringless.strictEquals_string (h : a.IsStringless) (t : Text) : a.strictEquals (string t) = false := by
  cases a with
  | string s => exact h.elim
  | undefined | null | bool | number | array | object => rfl

end Operand

/-! ## Evaluation -/

/-- A tree without quoted texts, the names of fields aside. -/
inductive Expr.IsStringless : Expr → Prop
  | undefined : IsStringless .undefined
  | null : IsStringless .null
  | bool (b : Bool) : IsStringless (.bool b)
  | number (x : Binary64) : IsStringless (.number x)
  | ident (name : Text) : IsStringless (.ident name)
  | member {e : Expr} (h : IsStringless e) (name : Text) : IsStringless (.member e name)
  | index {e k : Expr} (h : IsStringless e) (hk : IsStringless k) : IsStringless (.index e k)
  | not {e : Expr} (h : IsStringless e) : IsStringless (.not e)
  | neg {e : Expr} (h : IsStringless e) : IsStringless (.neg e)
  | binary (o : Operator) {e e' : Expr} (h : IsStringless e) (h' : IsStringless e') : IsStringless (.binary o e e')
  | array {items : List Expr} (h : ∀ e ∈ items, IsStringless e) : IsStringless (.array items)
  | object {fields : List (Text × Expr)} (h : ∀ f ∈ fields, IsStringless f.2) : IsStringless (.object fields)

private theorem bind_eq_ok {ε α β : Type} {x : Except ε α} {f : α → Except ε β} {b : β} (h : x >>= f = .ok b) :
    ∃ a, x = .ok a ∧ f a = .ok b := by
  cases x with
  | error err => cases h
  | ok a => exact ⟨a, rfl, h⟩

private theorem isStringless_evalItems {items : List Expr} {vs : List Json}
    (h : ∀ e ∈ items, ∀ a, e.eval context = .ok a → a.IsStringless) (hvs : Expr.evalItems context items = .ok vs) :
    ∀ v ∈ vs, v.IsStringless := by
  induction items generalizing vs with
  | nil =>
    cases hvs
    simp
  | cons e items ih =>
    obtain ⟨he, hitems⟩ := List.forall_mem_cons.1 h
    rw [Expr.evalItems] at hvs
    obtain ⟨a, ha, hvs⟩ := bind_eq_ok hvs
    obtain ⟨ws, hws, hvs⟩ := bind_eq_ok hvs
    cases hvs
    exact List.forall_mem_cons.2 ⟨(he a ha).toJson, ih hitems hws⟩

private theorem isStringless_evalFields {fields : List (Text × Expr)} {vs : List (Text × Json)}
    (h : ∀ f ∈ fields, ∀ a, f.2.eval context = .ok a → a.IsStringless) (hvs : Expr.evalFields context fields = .ok vs) :
    ∀ f ∈ vs, f.2.IsStringless := by
  induction fields generalizing vs with
  | nil =>
    cases hvs
    simp
  | cons f fields ih =>
    obtain ⟨k, e⟩ := f
    obtain ⟨he, hfields⟩ := List.forall_mem_cons.1 h
    rw [Expr.evalFields] at hvs
    obtain ⟨a, ha, hvs⟩ := bind_eq_ok hvs
    obtain ⟨ws, hws, hvs⟩ := bind_eq_ok hvs
    cases hvs
    exact List.forall_mem_cons.2 ⟨(he a ha).toJson, ih hfields hws⟩

/-- What has no strings is evaluated to what has none. -/
theorem Expr.IsStringless.eval (h : e.IsStringless) (hcontext : context.IsStringless) (ha : e.eval context = .ok a) :
    a.IsStringless := by
  induction h generalizing a with
  | undefined | null | bool | number =>
    cases ha
    trivial
  | ident name =>
    rw [Expr.eval] at ha
    split at ha
    · next v hv =>
      cases ha
      exact Operand.isStringless_ofJson (hcontext name v hv)
    · cases ha
  | member _ name ih =>
    rw [Expr.eval] at ha
    obtain ⟨target, htarget, ha⟩ := bind_eq_ok ha
    exact (ih htarget).property ha
  | index _ _ ih _ =>
    rw [Expr.eval] at ha
    obtain ⟨target, htarget, ha⟩ := bind_eq_ok ha
    obtain ⟨key, -, ha⟩ := bind_eq_ok ha
    exact (ih htarget).property ha
  | not _ _ =>
    rw [Expr.eval] at ha
    obtain ⟨b, -, ha⟩ := bind_eq_ok ha
    cases ha
    trivial
  | neg _ _ =>
    rw [Expr.eval] at ha
    obtain ⟨b, -, ha⟩ := bind_eq_ok ha
    cases ha
    trivial
  | binary o _ _ ih ih' =>
    rw [Expr.eval] at ha
    obtain ⟨left, hleft, ha⟩ := bind_eq_ok ha
    -- the two operators that are no comparisons give one of their operands
    cases o with
    | or =>
      dsimp only at ha
      split at ha
      · cases ha
        exact ih hleft
      · exact ih' ha
    | and =>
      dsimp only at ha
      split at ha
      · exact ih' ha
      · cases ha
        exact ih hleft
    | eq | notEq | strictEq | strictNotEq | lt | le | gt | ge =>
      obtain ⟨right, -, ha⟩ := bind_eq_ok ha
      cases ha
      trivial
  | array _ ih =>
    rw [Expr.eval] at ha
    obtain ⟨vs, hvs, ha⟩ := bind_eq_ok ha
    cases ha
    exact isStringless_evalItems (fun e he a ha => ih e he ha) hvs
  | object _ ih =>
    rw [Expr.eval] at ha
    obtain ⟨vs, hvs, ha⟩ := bind_eq_ok ha
    cases ha
    have hempty : Fields.IsStringless [] := fun _ _ hv => by cases hv
    exact hempty.foldl_insert (isStringless_evalFields (fun f hf a ha => ih f hf ha) hvs)

/-- A scope without strings has none as a context. -/
theorem isStringless_contextOf {scope : Fields} (h : ∀ f ∈ scope, f.2.IsStringless) (scopeName : Text) :
    (contextOf scope scopeName).IsStringless := by
  have hself : Fields.IsStringless [(scopeName, .object scope)] :=
    Fields.isStringless_of_forall_mem
      (List.forall_mem_singleton.2 (.object (Fields.isStringless_of_forall_mem h)))
  exact hself.foldl_insert h

/-! ## Reading -/

/-- A token that is no quoted text. -/
def Token.IsStringless (token : Token) : Prop := ∀ t, token ≠ .string t

/-- Only trees without quoted texts are open. -/
def Frame.IsStringless : Frame → Prop
  | .binary _ left => left.IsStringless
  | .index target => target.IsStringless
  | .array items => ∀ e ∈ items, e.IsStringless
  | .object fields _ => ∀ f ∈ fields, f.2.IsStringless
  | .not | .neg | .group => True

/-- What has been read last has no quoted text. -/
def Expecting.IsStringless : Expecting → Prop
  | .key fields | .colon fields _ => ∀ f ∈ fields, f.2.IsStringless
  | .property e | .continuation e => e.IsStringless
  | .operand | .firstItem | .firstKey => True

/-- Nothing that has been read is a quoted text. -/
structure State.IsStringless (st : State) : Prop where
  expecting : st.expecting.IsStringless
  frames : ∀ f ∈ st.frames, f.IsStringless

theorem isStringless_operandOfName (name : Text) : (State.operandOfName name).IsStringless := by
  unfold State.operandOfName
  split
  · exact .bool true
  · split
    · exact .bool false
    · split
      · exact .null
      · split
        · exact .undefined
        · exact .ident name

namespace State

theorem isStringless_close (level : Nat) (he : e.IsStringless) (hfs : ∀ f ∈ fs, f.IsStringless) :
    (close level e fs).1.IsStringless ∧ ∀ f ∈ (close level e fs).2, f.IsStringless := by
  induction fs generalizing e with
  | nil => exact ⟨he, hfs⟩
  | cons f fs ih =>
    obtain ⟨hf, hrest⟩ := List.forall_mem_cons.1 hfs
    cases f with
    | not => exact ih (.not he) hrest
    | neg => exact ih (.neg he) hrest
    | binary o left =>
      rw [close]
      split
      · exact ih (.binary o hf he) hrest
      · exact ⟨he, hfs⟩
    | group | index | array | object => exact ⟨he, hfs⟩

theorem isStringless_beginOperand (hfs : ∀ f ∈ fs, f.IsStringless) (ht : token.IsStringless)
    (h : beginOperand fs token = .ok st') : st'.IsStringless := by
  cases token with
  | string t => exact absurd rfl (ht t)
  | number x =>
    cases h
    exact ⟨.number x, hfs⟩
  | ident name =>
    cases h
    exact ⟨isStringless_operandOfName name, hfs⟩
  | lparen | not | minus =>
    cases h
    exact ⟨trivial, List.forall_mem_cons.2 ⟨trivial, hfs⟩⟩
  | lbracket | lbrace =>
    cases h
    exact ⟨trivial, hfs⟩
  | rparen | rbracket | rbrace | comma | colon | dot | operator => cases h

theorem isStringless_beginField {fields : List (Text × Expr)} (hfields : ∀ f ∈ fields, f.2.IsStringless)
    (hfs : ∀ f ∈ fs, f.IsStringless) (h : beginField fields fs token = .ok st') : st'.IsStringless := by
  cases token with
  | string | ident | number =>
    cases h
    exact ⟨hfields, hfs⟩
  | lparen | rparen | lbracket | rbracket | lbrace | rbrace | comma | colon | dot | not | minus | operator => cases h

private theorem forall_mem_concat {α : Type} {p : α → Prop} {l : List α} {a : α} (hl : ∀ b ∈ l, p b) (ha : p a) :
    ∀ b ∈ l ++ [a], p b :=
  List.forall_mem_append.2 ⟨hl, List.forall_mem_singleton.2 ha⟩

theorem isStringless_continueOperand (he : e.IsStringless) (hfs : ∀ f ∈ fs, f.IsStringless)
    (h : continueOperand e fs token = .ok st') : st'.IsStringless := by
  -- what ends here is the innermost construct that is still open
  have hopen : ∀ {inner : Expr} {f : Frame} {rest : List Frame}, close 0 e fs = (inner, f :: rest) →
      inner.IsStringless ∧ f.IsStringless ∧ ∀ f ∈ rest, f.IsStringless := by
    intro inner f rest heq
    have hclose := isStringless_close 0 he hfs
    rw [heq] at hclose
    exact ⟨hclose.1, List.forall_mem_cons.1 hclose.2⟩
  cases token with
  | dot =>
    cases h
    exact ⟨he, hfs⟩
  | lbracket =>
    cases h
    exact ⟨trivial, List.forall_mem_cons.2 ⟨he, hfs⟩⟩
  | operator o =>
    cases h
    obtain ⟨hleft, hrest⟩ := isStringless_close o.level he hfs
    exact ⟨trivial, List.forall_mem_cons.2 ⟨hleft, hrest⟩⟩
  | rparen =>
    simp only [continueOperand] at h
    split at h
    · next inner rest heq =>
      cases h
      obtain ⟨hinner, -, hrest⟩ := hopen heq
      exact ⟨hinner, hrest⟩
    · cases h
  | rbracket =>
    simp only [continueOperand] at h
    split at h
    · next key target rest heq =>
      cases h
      obtain ⟨hkey, htarget, hrest⟩ := hopen heq
      exact ⟨.index htarget hkey, hrest⟩
    · next item items rest heq =>
      cases h
      obtain ⟨hitem, hitems, hrest⟩ := hopen heq
      exact ⟨.array (forall_mem_concat hitems hitem), hrest⟩
    · cases h
  | rbrace =>
    simp only [continueOperand] at h
    split at h
    · next value fields key rest heq =>
      cases h
      obtain ⟨hvalue, hfields, hrest⟩ := hopen heq
      exact ⟨.object (forall_mem_concat hfields hvalue), hrest⟩
    · cases h
  | comma =>
    simp only [continueOperand] at h
    split at h
    · next item items rest heq =>
      cases h
      obtain ⟨hitem, hitems, hrest⟩ := hopen heq
      exact ⟨trivial, List.forall_mem_cons.2 ⟨forall_mem_concat hitems hitem, hrest⟩⟩
    · next value fields key rest heq =>
      cases h
      obtain ⟨hvalue, hfields, hrest⟩ := hopen heq
      exact ⟨forall_mem_concat hfields hvalue, hrest⟩
    · cases h
  | number | string | ident | lparen | lbrace | colon | not | minus => cases h

/-- One token leads from a state without strings to one. -/
theorem IsStringless.step (hst : st.IsStringless) (ht : token.IsStringless) (h : st.step token = .ok st') :
    st'.IsStringless := by
  obtain ⟨expecting, fs⟩ := st
  obtain ⟨hexpecting, hfs⟩ := hst
  dsimp only at hexpecting hfs
  cases expecting with
  | operand => exact isStringless_beginOperand hfs ht h
  | firstItem =>
    rw [State.step] at h
    split at h
    · cases h
      exact ⟨.array (by simp), hfs⟩
    · exact isStringless_beginOperand (List.forall_mem_cons.2 ⟨by simp [Frame.IsStringless], hfs⟩) ht h
  | firstKey =>
    rw [State.step] at h
    split at h
    · cases h
      exact ⟨.object (by simp), hfs⟩
    · exact isStringless_beginField (by simp) hfs h
  | key fields => exact isStringless_beginField hexpecting hfs h
  | colon fields k =>
    rw [State.step] at h
    split at h
    · cases h
      exact ⟨trivial, List.forall_mem_cons.2 ⟨hexpecting, hfs⟩⟩
    · cases h
  | property target =>
    cases token with
    | ident name =>
      cases h
      exact ⟨.member hexpecting name, hfs⟩
    | number | string | lparen | rparen | lbracket | rbracket | lbrace | rbrace | comma | colon | dot | not | minus |
      operator => cases h
  | continuation e => exact isStringless_continueOperand hexpecting hfs h

/-- No row of tokens without strings leads to a string. -/
theorem IsStringless.run (hst : st.IsStringless) (hts : ∀ token ∈ ts, token.IsStringless) (h : st.run ts = .ok st') :
    st'.IsStringless := by
  induction ts generalizing st with
  | nil =>
    cases h
    exact hst
  | cons token ts ih =>
    obtain ⟨ht, hts⟩ := List.forall_mem_cons.1 hts
    rw [State.run] at h
    split at h
    · next st₁ hstep => exact ih (hst.step ht hstep) hts h
    · cases h

end State

/-! ## Scanning -/

namespace Token

theorem isStringless_of_sign? (h : sign? c s = some (token, rest)) : token.IsStringless := by
  intro t
  have hc := mem_of_sign? h
  simp only [String.reduceToList, List.mem_cons, List.not_mem_nil, or_false] at hc
  rcases hc with rfl | rfl | rfl | rfl | rfl | rfl | rfl | rfl | rfl | rfl | rfl | rfl | rfl | rfl | rfl | rfl
  iterate 10
    · cases h
      simp
  all_goals
    unfold sign? at h
    simp only [Char.reduceEq, ↓reduceIte] at h
    split at h <;> cases h <;> simp

/-- A token that does not begin with a quote is no quoted text. -/
theorem isStringless_of_next (hc : c ≠ '"' ∧ c ≠ '\'') (h : next n c s = .ok (token, rest)) : token.IsStringless := by
  have hquote : ¬ (c = '"' || c = '\'') = true := by simp [hc]
  unfold next at h
  rw [if_neg hquote] at h
  split at h
  · dsimp only at h
    split at h
    · cases h
      simp [Token.IsStringless]
    · cases h
  · split at h
    · cases h
      simp [Token.IsStringless]
    · split at h
      · next found hs =>
        cases h
        exact isStringless_of_sign? hs
      · cases h

/-- A text without quotes has no quoted texts. -/
theorem isStringless_of_scanFrom (hs : '"' ∉ s ∧ '\'' ∉ s) (h : scanFrom n s = .ok ts) :
    ∀ token ∈ ts, token.IsStringless := by
  fun_induction scanFrom n s generalizing ts with
  | case1 n =>
    cases h
    simp
  | case2 n c r hc ih =>
    simp only [List.mem_cons, not_or] at hs
    exact ih ⟨hs.1.2, hs.2.2⟩ h
  | case3 n c r hc err he => cases h
  | case4 n c r hc token rest hn hlen ih =>
    simp only [List.mem_cons, not_or] at hs
    have hsub := (next_suffix hn).subset
    obtain ⟨us, hus, rfl⟩ := exists_of_map_eq_ok h
    have hrest := ih ⟨fun hm => hs.1.2 (hsub hm), fun hm => hs.2.2 (hsub hm)⟩ hus
    exact List.forall_mem_cons.2 ⟨isStringless_of_next ⟨Ne.symm hs.1.1, Ne.symm hs.2.1⟩ hn, hrest⟩
  | case5 n c r hc token rest hn hlen => exact (hlen (next_suffix hn).length_le).elim

/-! ### Texts that are refused -/

/-- What is no sign is none in front of a blank either. -/
theorem sign?_append_blank (h : sign? c s = none) (z : Text) : sign? c (s ++ ' ' :: z) = none := by
  by_contra hsome
  obtain ⟨⟨token, rest⟩, hsome⟩ := Option.ne_none_iff_exists'.1 hsome
  have hc := mem_of_sign? hsome
  simp only [String.reduceToList, List.mem_cons, List.not_mem_nil, or_false] at hc
  have hcons : ∀ d w, s ++ ' ' :: z = d :: w → d = ' ' ∨ ∃ w', s = d :: w' := by
    intro d w hs
    cases s with
    | nil => exact .inl (List.cons.inj hs).1.symm
    | cons e s => exact .inr ⟨s, by rw [(List.cons.inj hs).1]⟩
  rcases hc with rfl | rfl | rfl | rfl | rfl | rfl | rfl | rfl | rfl | rfl | rfl | rfl | rfl | rfl | rfl | rfl
  iterate 10
    · cases h
  all_goals
    unfold sign? at h hsome
    simp only [Char.reduceEq, ↓reduceIte] at h hsome
  -- `!`, `<` and `>` are signs alone
  · split at h <;> cases h
  · split at hsome
    · next hs =>
      obtain hd | ⟨w, rfl⟩ := hcons _ _ hs
      · exact absurd hd (by decide)
      · split at h <;> grind
    · next hs =>
      obtain hd | ⟨w, rfl⟩ := hcons _ _ hs
      · exact absurd hd (by decide)
      · split at h <;> grind
    · cases hsome
  · split at h <;> cases h
  · split at h <;> cases h
  all_goals
    split at hsome
    · next hs =>
      obtain hd | ⟨w, rfl⟩ := hcons _ _ hs
      · exact absurd hd (by decide)
      · cases h
    · cases hsome

theorem next_append_blank_of_error {err : ConditionError} (hc : c ≠ '"' ∧ c ≠ '\'') (h : next n c s = .error err)
    (z : Text) : next n c (s ++ ' ' :: z) = .error err := by
  have hseam : Seam (' ' :: z) := seam_cons.2 (by decide)
  have hquote : ¬ (c = '"' || c = '\'') = true := by simp [hc]
  unfold next at h ⊢
  rw [if_neg hquote] at h ⊢
  split at h
  · next hdigit =>
    rw [if_pos hdigit, hseam.numberLiteral_append hdigit]
    dsimp only at h ⊢
    split at h
    · cases h
    · exact h
  · next hdigit =>
    rw [if_neg hdigit]
    split at h
    · cases h
    · next hname =>
      rw [if_neg hname]
      split at h
      · cases h
      · next hs =>
        rw [sign?_append_blank hs]
        exact h

/-- A text without quotes that is refused is refused in front of a blank too, with the same error. -/
theorem scanFrom_append_blank_of_error {err : ConditionError} (hs : '"' ∉ s ∧ '\'' ∉ s) (h : scanFrom n s = .error err)
    (z : Text) : scanFrom n (s ++ ' ' :: z) = .error err := by
  have hseam : Seam (' ' :: z) := seam_cons.2 (by decide)
  fun_induction scanFrom n s with
  | case1 n => cases h
  | case2 n c r hc ih =>
    simp only [List.mem_cons, not_or] at hs
    rw [List.cons_append, scanFrom_blank hc, ih ⟨hs.1.2, hs.2.2⟩ h]
  | case3 n c r hc e he =>
    cases h
    simp only [List.mem_cons, not_or] at hs
    have hnext := next_append_blank_of_error ⟨Ne.symm hs.1.1, Ne.symm hs.2.1⟩ he z
    rw [List.cons_append, scanFrom_error (by simpa using hc) hnext]
  | case4 n c r hc token rest hn hlen ih =>
    simp only [List.mem_cons, not_or] at hs
    have hsub := (next_suffix hn).subset
    have hread : n + Text.size (c :: (r ++ ' ' :: z)) - Text.size (rest ++ ' ' :: z) =
        n + Text.size (c :: r) - Text.size rest := by
      simp only [Text.size_cons, Text.size_append]
      omega
    have herror : scanFrom (n + Text.size (c :: r) - Text.size rest) rest = .error err := by
      cases hrest : scanFrom (n + Text.size (c :: r) - Text.size rest) rest with
      | ok us =>
        rw [hrest] at h
        cases h
      | error e =>
        rw [hrest] at h
        exact h
    rw [List.cons_append, scanFrom_next (by simpa using hc) (next_append hn hseam), hread,
      ih ⟨fun hm => hs.1.2 (hsub hm), fun hm => hs.2.2 (hsub hm)⟩ herror]
    rfl
  | case5 n c r hc token rest hn hlen => exact (hlen (next_suffix hn).length_le).elim

end Token

end Condition

end Pagewright
