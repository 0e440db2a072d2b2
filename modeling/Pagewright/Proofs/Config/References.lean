import Pagewright.Config.Variables
import Pagewright.Proofs.Text.Substitution
import Pagewright.Template.Tag

/-!
# References in fields

A field may refer to variables as `${NAME}` and `${NAME:-default}`, and everything else in it stands for itself. Three
things live here:

* the references and the other characters of a field (`Config.fieldParts`), and what they stand for
  (`Config.expansion?`);
* the dollar signs that stand for themselves also where variables are replaced (`Config.PlainDollars`): those that are
  not in front of another dollar sign or of a character of a name;
* a field with a reference stands for what its parts stand for, whatever the variables are, if and only if its other
  dollar signs are of this kind (`Config.expandField_references_iff`).
-/

namespace Pagewright.Config

variable {env : Environment} {name inner t r rest a b out : Text} {default : Option Text} {c : Char}

/-! ## Fields and their parts -/

/-- A part of a field: a reference to a variable, or a character that stands for itself. -/
inductive FieldPart
  | reference (name : Text) (default : Option Text)
  | character (c : Char)
deriving DecidableEq

namespace FieldPart

/-- A part as it is written. -/
def written : FieldPart → Text
  | reference name none => '$' :: '\x7b' :: (name ++ ['\x7d'])
  | reference name (some default) => '$' :: '\x7b' :: (name ++ ':' :: '-' :: (default ++ ['\x7d']))
  | character c => [c]

/-- What a part stands for; a variable that is not set stands for its default. -/
def value? (env : Environment) : FieldPart → Option Text
  | reference name none => env.lookup name
  | reference name (some default) => some ((env.lookup name).getD default)
  | character c => some [c]

end FieldPart

/-- The text between the braces of the reference at the start of a text, and what follows the reference. -/
def braced? : Text → Option (Text × Text)
  | '$' :: '\x7b' :: r => Text.splitOnce? '\x7d' r
  | _ => none

theorem eq_append_of_braced? (h : braced? t = some (inner, rest)) :
    t = '$' :: '\x7b' :: (inner ++ '\x7d' :: rest) := by
  unfold braced? at h
  split at h
  · rw [OpenTag.splitOnce?_eq_append h]
  · cases h

theorem braced?_append (h : braced? t = some (inner, rest)) (b : Text) : braced? (t ++ b) = some (inner, rest ++ b) := by
  obtain rfl := eq_append_of_braced? h
  have htext : '$' :: '\x7b' :: (inner ++ '\x7d' :: rest) ++ b = '$' :: '\x7b' :: (inner ++ '\x7d' :: (rest ++ b)) := by
    simp
  rw [htext]
  exact Text.splitOnce?_append (Text.notMem_of_splitOnce? h) (rest ++ b)

theorem braced?_cons_eq_none (h : c = '$' → r.head? ≠ some '\x7b') : braced? (c :: r) = none := by
  unfold braced?
  split
  · next heq =>
    obtain ⟨rfl, rfl⟩ := List.cons.inj heq
    exact absurd rfl (h rfl)
  · rfl

/-- The references and the other characters of a field; a brace that is not closed begins no reference. -/
def fieldParts : Text → List FieldPart
  | [] => []
  | c :: r =>
    match _h : braced? (c :: r) with
    | some (inner, rest) => .reference (splitDefault inner).1 (splitDefault inner).2 :: fieldParts rest
    | none => .character c :: fieldParts r
termination_by t => t.length
decreasing_by
  · have := congrArg List.length (eq_append_of_braced? _h)
    simp at this ⊢
    omega
  · simp

/-- What a field stands for by its references: nothing if a variable without a default is not set. -/
def expansion? (env : Environment) : List FieldPart → Option Text
  | [] => some []
  | part :: parts => (part.value? env).bind fun value => (expansion? env parts).map (value ++ ·)

theorem fieldParts_of_braced? (h : braced? t = some (inner, rest)) :
    fieldParts t = .reference (splitDefault inner).1 (splitDefault inner).2 :: fieldParts rest := by
  obtain rfl := eq_append_of_braced? h
  rw [fieldParts]
  split
  · next h' =>
    obtain ⟨rfl, rfl⟩ := Prod.mk.inj (Option.some.inj (h.symm.trans h'))
    rfl
  · next h' => rw [h] at h'; cases h'

theorem fieldParts_of_braced?_eq_none (h : braced? (c :: r) = none) :
    fieldParts (c :: r) = .character c :: fieldParts r := by
  rw [fieldParts]
  split
  · next h' => rw [h] at h'; cases h'
  · rfl

/-- A reference is written as its parts are. -/
theorem written_splitDefault (inner : Text) :
    (FieldPart.reference (splitDefault inner).1 (splitDefault inner).2).written =
      '$' :: '\x7b' :: (inner ++ ['\x7d']) := by
  unfold splitDefault
  split
  · next name default hsplit =>
    split
    · rfl
    · rw [Text.eq_append_of_splitFirst? hsplit]
      simp [FieldPart.written]
  · rfl

/-- Nothing of a field is lost. -/
theorem flatMap_written_fieldParts (t : Text) : (fieldParts t).flatMap FieldPart.written = t := by
  fun_induction fieldParts t with
  | case1 => rfl
  | case2 c r inner rest h ih =>
    rw [List.flatMap_cons, ih, written_splitDefault, eq_append_of_braced? h]
    simp
  | case3 c r h ih =>
    rw [List.flatMap_cons, ih]
    rfl

/-- No dollar sign outside of the references stands in front of another one or of a character of a name. -/
def PlainDollars : List FieldPart → Prop
  | [] => True
  | .reference _ _ :: parts => PlainDollars parts
  | .character c :: parts =>
    (c = '$' → ∀ d ∈ (parts.flatMap FieldPart.written).head?, d ≠ '$' ∧ isVariableChar d = false) ∧ PlainDollars parts

/-! ## Replacing variables, step by step -/

theorem expandVariables_nil (env : Environment) : expandVariables env [] = .ok [] := by
  rw [expandVariables, Text.substituteM]

theorem expandVariables_of_readReference? {found : Except Text Text} (h : readReference? env (c :: r) = some (found, rest))
    (hlength : rest.length ≤ r.length) :
    expandVariables env (c :: r) = found.bind fun value => (expandVariables env rest).map (value ++ ·) := by
  rw [expandVariables, Text.substituteM_cons_some h, if_pos hlength, expandVariables]
  cases found with
  | error => rfl
  | ok value => cases Text.substituteM (readReference? env) rest <;> rfl

/-- A reference is replaced by the value of its variable, or by its default. -/
theorem expandVariables_of_braced? (h : braced? t = some (inner, rest)) :
    expandVariables env t =
      (reference? env inner).bind fun value => (expandVariables env rest).map (value ++ ·) := by
  obtain rfl := eq_append_of_braced? h
  refine expandVariables_of_readReference? ?_ ?_
  · rw [readReference?, show Text.splitOnce? _ _ = _ from h]
  · simp
    omega

theorem expandVariables_cons_of_ne (h : c ≠ '$') (env : Environment) (r : Text) :
    expandVariables env (c :: r) = (expandVariables env r).map (c :: ·) := by
  have hnone : readReference? env (c :: r) = none := by
    unfold readReference?
    split <;> simp_all
  exact Text.substituteM_cons_none hnone

theorem expandVariables_dollars (env : Environment) (r : Text) :
    expandVariables env ('$' :: '$' :: r) = (expandVariables env r).map ('$' :: ·) := by
  have hstep : readReference? env ('$' :: '$' :: r) = some (.ok ['$'], r) := rfl
  rw [expandVariables_of_readReference? hstep (Nat.le_succ _)]
  rfl

/-- A dollar sign in front of anything but a brace or another dollar sign. -/
private theorem readReference?_of_ne (hbrace : c ≠ '{') (hdollar : c ≠ '$') (env : Environment) (r : Text) :
    readReference? env ('$' :: c :: r) =
      if isVariableChar c then
        some (requireVariable env ((c :: r).takeWhile isVariableChar), (c :: r).dropWhile isVariableChar)
      else none := by
  rw [readReference?]
  · exact hbrace
  · exact hdollar

theorem expandVariables_name (h : isVariableChar c) (env : Environment) (r : Text) :
    expandVariables env ('$' :: c :: r) =
      (requireVariable env ((c :: r).takeWhile isVariableChar)).bind fun value =>
        (expandVariables env ((c :: r).dropWhile isVariableChar)).map (value ++ ·) := by
  refine expandVariables_of_readReference? ?_ (Text.length_dropWhile_le _ _)
  rw [readReference?_of_ne, if_pos h]
  · rintro rfl
    exact absurd h (by decide +kernel)
  · rintro rfl
    exact absurd h (by decide +kernel)

/-- Other characters stay, but for the dollar signs in front of another one or of a character of a name. -/
theorem expandVariables_of_braced?_eq_none (h : braced? (c :: r) = none)
    (hplain : c = '$' → ∀ d ∈ r.head?, d ≠ '$' ∧ isVariableChar d = false) :
    expandVariables env (c :: r) = (expandVariables env r).map (c :: ·) := by
  by_cases hc : c = '$'
  · subst hc
    cases r with
    | nil => exact Text.substituteM_cons_none rfl
    | cons d r =>
      obtain ⟨hdollar, hname⟩ := hplain rfl d rfl
      by_cases hbrace : d = '{'
      · subst hbrace
        have hopen : readReference? env ('$' :: '{' :: r) = some (.ok ['$', '{'], r) := by
          rw [readReference?, show Text.splitOnce? _ _ = _ from h]
        rw [expandVariables_of_readReference? hopen (Nat.le_succ _), expandVariables_cons_of_ne (by decide)]
        cases expandVariables env r <;> rfl
      · refine Text.substituteM_cons_none ?_
        rw [readReference?_of_ne hbrace hdollar, if_neg (by simp [hname])]
  · exact expandVariables_cons_of_ne hc env r

/-! ## Plain dollar signs -/

theorem reference?_eq_ok_iff {value : Text} : reference? env inner = .ok value ↔
    (FieldPart.reference (splitDefault inner).1 (splitDefault inner).2).value? env = some value := by
  unfold reference?
  obtain ⟨name, default⟩ := splitDefault inner
  cases default with
  | some default => simp [FieldPart.value?]
  | none =>
    dsimp only [FieldPart.value?]
    rw [requireVariable]
    cases env.lookup name <;> simp

/-- Where dollar signs are plain, a text with variables stands for what its parts stand for. -/
theorem expandVariables_eq_ok (h : PlainDollars (fieldParts t)) (hout : expansion? env (fieldParts t) = some out) :
    expandVariables env t = .ok out := by
  fun_induction fieldParts t generalizing out with
  | case1 =>
    obtain rfl := Option.some.inj hout
    exact expandVariables_nil env
  | case2 c r inner rest hbraced ih =>
    obtain ⟨value, hvalue, hout⟩ := Option.bind_eq_some_iff.1 hout
    obtain ⟨u, hu, rfl⟩ := Option.map_eq_some_iff.1 hout
    rw [expandVariables_of_braced? hbraced, reference?_eq_ok_iff.2 hvalue, ih h hu]
    rfl
  | case3 c r hbraced ih =>
    obtain ⟨value, hvalue, hout⟩ := Option.bind_eq_some_iff.1 hout
    obtain ⟨u, hu, rfl⟩ := Option.map_eq_some_iff.1 hout
    obtain rfl : [c] = value := Option.some.inj hvalue
    obtain ⟨hplain, h⟩ := h
    rw [flatMap_written_fieldParts] at hplain
    rw [expandVariables_of_braced?_eq_none hbraced hplain, ih h hu]
    rfl

/-! ## Dollar signs that are not plain -/

/-- The parts with an `x` for each reference. -/
def marks (parts : List FieldPart) : Text := parts.flatMap fun
  | .reference _ _ => ['x']
  | .character c => [c]

/-- Variables that all have the value `x`, the ones that are referred to among them. -/
structure Marking (env : Environment) (parts : List FieldPart) : Prop where
  value : ∀ {name value : Text}, env.lookup name = some value → value = ['x']
  isSet : ∀ {name : Text} {default : Option Text}, .reference name default ∈ parts → env.lookup name = some ['x']

theorem exists_marking (parts : List FieldPart) : ∃ env, Marking env parts := by
  induction parts with
  | nil => exact ⟨[], ⟨fun hlookup => absurd hlookup (by simp), fun hmem => absurd hmem List.not_mem_nil⟩⟩
  | cons part parts ih =>
    obtain ⟨env, henv⟩ := ih
    cases part with
    | character c => exact ⟨env, ⟨henv.value, fun hmem => henv.isSet (by simpa using hmem)⟩⟩
    | reference name default =>
      refine ⟨(name, ['x']) :: env, ⟨fun {key value} hlookup => ?_, fun {key default'} hmem => ?_⟩⟩
      · rw [List.lookup_cons] at hlookup
        split at hlookup
        · exact (Option.some.inj hlookup).symm
        · exact henv.value hlookup
      · rw [List.lookup_cons]
        split
        · rfl
        · next hne =>
          rcases List.mem_cons.1 hmem with heq | hmem
          · obtain ⟨rfl, -⟩ := FieldPart.reference.inj heq
            simp at hne
          · exact henv.isSet hmem

theorem Marking.tail {part : FieldPart} {parts : List FieldPart} (h : Marking env (part :: parts)) :
    Marking env parts := ⟨h.value, fun hmem => h.isSet (List.mem_cons_of_mem part hmem)⟩

theorem Marking.value?_eq {part : FieldPart} {parts : List FieldPart} (h : Marking env (part :: parts)) :
    part.value? env = some (marks [part]) := by
  cases part with
  | character c => rfl
  | reference name default =>
    have hset := h.isSet List.mem_cons_self
    cases default with
    | none => exact hset
    | some default => rw [FieldPart.value?, hset]; rfl

theorem Marking.expansion?_eq {parts : List FieldPart} (h : Marking env parts) :
    expansion? env parts = some (marks parts) := by
  induction parts with
  | nil => rfl
  | cons part parts ih =>
    rw [expansion?, h.value?_eq, ih h.tail]
    simp [marks]

theorem map_cons_eq_ok_iff {x : Except Text Text} {d : Char} {u : Text} :
    x.map (c :: ·) = .ok (d :: u) ↔ c = d ∧ x = .ok u := by
  cases x <;> simp [Except.map]

/-- A text that does not begin with a dollar sign begins as before when variables are replaced. -/
theorem head?_of_expandVariables (hr : r.head? ≠ some '$') (h : expandVariables env r = .ok out) : out.head? = r.head? := by
  cases r with
  | nil =>
    rw [expandVariables_nil] at h
    rw [← Except.ok.inj h]
  | cons c r =>
    rw [expandVariables_cons_of_ne (by simpa using hr)] at h
    cases hrest : expandVariables env r with
    | error => rw [hrest] at h; cases h
    | ok u =>
      rw [hrest] at h
      rw [← Except.ok.inj h]
      rfl

theorem head?_of_bind_eq_ok {found tail : Except Text Text} (hfound : ∀ value, found = .ok value → value = ['x'])
    (h : found.bind (fun value => tail.map (value ++ ·)) = .ok out) : out.head? = some 'x' := by
  cases found with
  | error => cases h
  | ok value =>
    obtain rfl := hfound value rfl
    cases tail with
    | error => cases h
    | ok u =>
      rw [← Except.ok.inj h]
      rfl

theorem marks_fieldParts_of_braced?_eq_none (h : braced? (c :: r) = none) :
    marks (fieldParts (c :: r)) = c :: marks (fieldParts r) := by
  rw [fieldParts_of_braced?_eq_none h]
  rfl

/-- A text that begins with a dollar sign keeps it, unless it begins with a reference. -/
theorem head?_marks_dollar (r : Text) : (marks (fieldParts ('$' :: r))).head? = some '$' ∨
    ((marks (fieldParts ('$' :: r))).head? = some 'x' ∧ r.head? = some '{') := by
  cases hbraced : braced? ('$' :: r) with
  | none =>
    rw [marks_fieldParts_of_braced?_eq_none hbraced]
    exact Or.inl rfl
  | some found =>
    obtain ⟨inner, rest⟩ := found
    refine Or.inr ⟨?_, ?_⟩
    · rw [fieldParts_of_braced? hbraced]
      rfl
    · rw [(List.cons.inj (eq_append_of_braced? hbraced)).2]
      rfl

theorem replicate_append_dollar (k : ℕ) (u : Text) :
    List.replicate k '$' ++ '$' :: u = '$' :: (List.replicate k '$' ++ u) := by
  rw [← List.cons_append, ← List.replicate_succ, List.replicate_succ', List.append_assoc]
  rfl

/-- A variable that is read is one of the environment. -/
theorem Marking.eq_of_requireVariable {parts : List FieldPart} {value : Text} (h : Marking env parts)
    (hvalue : requireVariable env name = .ok value) : value = ['x'] := by
  unfold requireVariable at hvalue
  split at hvalue
  · next v hlookup => exact Except.ok.inj hvalue ▸ h.value hlookup
  · cases hvalue

theorem Marking.eq_of_reference? {value : Text} (h : Marking env (fieldParts t)) (hbraced : braced? t = some (inner, rest))
    (hvalue : reference? env inner = .ok value) : value = ['x'] := by
  rw [fieldParts_of_braced? hbraced] at h
  rw [reference?_eq_ok_iff, h.value?_eq] at hvalue
  exact (Option.some.inj hvalue).symm

/-- The dollar sign that was lost in front of a text is missed, however many more are lost in the text. -/
theorem Marking.expandVariables_ne (r : Text) (k : ℕ) (h : Marking env (fieldParts ('$' :: r))) :
    expandVariables env r ≠ .ok (List.replicate k '$' ++ marks (fieldParts ('$' :: r))) := by
  intro hok
  by_cases hr : r.head? = some '$'
  · obtain ⟨s, rfl⟩ := List.head?_eq_some_iff.1 hr
    have hdollar : braced? ('$' :: '$' :: s) = none := rfl
    rw [marks_fieldParts_of_braced?_eq_none hdollar, replicate_append_dollar] at hok
    rw [fieldParts_of_braced?_eq_none hdollar] at h
    cases hbraced : braced? ('$' :: s) with
    | some found =>
      -- a reference comes next, and its value is no dollar sign
      rw [expandVariables_of_braced? hbraced] at hok
      exact absurd (head?_of_bind_eq_ok (fun value hvalue => h.tail.eq_of_reference? hbraced hvalue) hok) (by simp)
    | none =>
      by_cases hs : s.head? = some '$'
      · -- a second dollar sign is lost
        obtain ⟨s', rfl⟩ := List.head?_eq_some_iff.1 hs
        rw [expandVariables_dollars, map_cons_eq_ok_iff, marks_fieldParts_of_braced?_eq_none hbraced,
          replicate_append_dollar] at hok
        have htail := h.tail
        rw [fieldParts_of_braced?_eq_none hbraced] at htail
        exact expandVariables_ne s' (k + 1) htail.tail hok.2
      · by_cases hname : ∃ e ∈ s.head?, isVariableChar e
        · -- a name comes next, and the value of its variable is no dollar sign
          obtain ⟨e, he, hname⟩ := hname
          obtain ⟨s', rfl⟩ := List.head?_eq_some_iff.1 he
          rw [expandVariables_name hname] at hok
          exact absurd (head?_of_bind_eq_ok (fun value hvalue => h.eq_of_requireVariable hvalue) hok) (by simp)
        · have hplain : ∀ d ∈ s.head?, d ≠ '$' ∧ isVariableChar d = false := fun d hd =>
            ⟨fun heq => hs (heq ▸ hd), Bool.eq_false_iff.2 fun hd' => hname ⟨d, hd, hd'⟩⟩
          rw [expandVariables_of_braced?_eq_none hbraced fun _ => hplain, map_cons_eq_ok_iff,
            marks_fieldParts_of_braced?_eq_none hbraced, replicate_append_dollar] at hok
          exact hs (head?_of_expandVariables hs hok.2).symm
  · have hhead := head?_of_expandVariables hr hok
    cases k with
    | zero =>
      rcases head?_marks_dollar r with hfront | ⟨hfront, hbrace⟩
      · exact hr (hhead.symm.trans hfront)
      · rw [← hhead] at hbrace
        exact absurd (hfront.symm.trans hbrace) (by decide)
    | succ k => exact hr hhead.symm
termination_by r.length

/-- Where a dollar sign is not plain, a text with variables does not stand for what its parts stand for. -/
theorem Marking.expandVariables_ne_marks (h : Marking env (fieldParts t)) (hdollars : ¬ PlainDollars (fieldParts t)) :
    expandVariables env t ≠ .ok (marks (fieldParts t)) := by
  fun_induction fieldParts t with
  | case1 => exact absurd trivial hdollars
  | case2 c r inner rest hbraced ih =>
    intro hok
    have hvalue : reference? env inner = .ok ['x'] := reference?_eq_ok_iff.2 h.value?_eq
    rw [expandVariables_of_braced? hbraced, hvalue] at hok
    exact ih h.tail hdollars (map_cons_eq_ok_iff.1 hok).2
  | case3 c r hbraced ih =>
    intro hok
    by_cases hplain : c = '$' → ∀ d ∈ r.head?, d ≠ '$' ∧ isVariableChar d = false
    · rw [expandVariables_of_braced?_eq_none hbraced hplain] at hok
      refine ih h.tail (fun hrest => hdollars ⟨?_, hrest⟩) (map_cons_eq_ok_iff.1 hok).2
      rw [flatMap_written_fieldParts]
      exact hplain
    · -- the first dollar sign that is not plain
      push Not at hplain
      obtain ⟨rfl, d, hd, hread⟩ := hplain
      obtain ⟨r', rfl⟩ := List.head?_eq_some_iff.1 hd
      by_cases hdollar : d = '$'
      · subst hdollar
        rw [expandVariables_dollars] at hok
        exact h.tail.expandVariables_ne r' 0 (map_cons_eq_ok_iff.1 hok).2
      · have hname : isVariableChar d := by simpa using hread hdollar
        rw [expandVariables_name hname] at hok
        have hhead := head?_of_bind_eq_ok (fun value hvalue => h.eq_of_requireVariable hvalue) hok
        exact absurd hhead (by simp [marks])

/-! ## Fields in two parts -/

theorem expansion?_append (env : Environment) (parts parts' : List FieldPart) :
    expansion? env (parts ++ parts') =
      (expansion? env parts).bind fun u => (expansion? env parts').map (u ++ ·) := by
  induction parts with
  | nil => simp [expansion?]
  | cons part parts ih =>
    rw [List.cons_append, expansion?, expansion?, ih]
    cases part.value? env with
    | none => rfl
    | some value => cases expansion? env parts <;> cases expansion? env parts' <;> simp

theorem plainDollars_append {parts parts' : List FieldPart} (h : PlainDollars (parts ++ parts')) :
    PlainDollars parts ∧ PlainDollars parts' := by
  induction parts with
  | nil => exact ⟨trivial, h⟩
  | cons part parts ih =>
    cases part with
    | reference name default => exact ih h
    | character c =>
      obtain ⟨hplain, h⟩ := h
      refine ⟨⟨fun hc d hd => hplain hc d ?_, (ih h).1⟩, (ih h).2⟩
      show d ∈ ((parts ++ parts').flatMap FieldPart.written).head?
      rw [List.flatMap_append]
      exact List.mem_head?_append_of_mem_head? hd

/-- No reference is left open: a dollar sign that stands for itself is in front of no brace. -/
def Whole : List FieldPart → Prop
  | [] => True
  | .reference _ _ :: parts => Whole parts
  | .character c :: parts => (c = '$' → parts.head? ≠ some (.character '\x7b')) ∧ Whole parts

/-- The parts of a field are those of its two halves, unless a reference lies across the seam. -/
theorem fieldParts_append (h : Whole (fieldParts a)) (hseam : a.getLast? = some '$' → b.head? ≠ some '\x7b') :
    fieldParts (a ++ b) = fieldParts a ++ fieldParts b := by
  fun_induction fieldParts a with
  | case1 => rfl
  | case2 c r inner rest hbraced ih =>
    rw [fieldParts_of_braced? (braced?_append hbraced b), List.cons_append, ih h]
    intro hlast
    apply hseam
    rw [eq_append_of_braced? hbraced, ← List.cons_append, ← List.cons_append, List.append_cons, List.getLast?_append,
      hlast, Option.some_or]
  | case3 c r hbraced ih =>
    obtain ⟨hbrace, h⟩ := h
    have hnone : braced? (c :: (r ++ b)) = none := by
      refine braced?_cons_eq_none fun hc => ?_
      cases r with
      | nil => exact hseam (by rw [hc]; rfl)
      | cons d r =>
        rintro ⟨⟩
        refine hbrace hc ?_
        rw [fieldParts_of_braced?_eq_none rfl]
        rfl
    rw [List.cons_append, fieldParts_of_braced?_eq_none hnone, ih h, List.cons_append]
    intro hlast
    apply hseam
    rw [List.getLast?_cons, hlast, Option.getD_some]

/-- Without a dollar sign in front of a brace there is no reference. -/
theorem expansion?_of_not_contains (h : ¬ Text.contains ['$', '\x7b'] t) (env : Environment) :
    expansion? env (fieldParts t) = some t := by
  rw [Text.contains_iff] at h
  fun_induction fieldParts t with
  | case1 => rfl
  | case2 c r inner rest hbraced ih =>
    refine absurd ?_ h
    rw [eq_append_of_braced? hbraced]
    exact ⟨[], _, rfl⟩
  | case3 c r hbraced ih =>
    have hrest := ih fun hr => h (hr.trans (List.suffix_cons c r).isInfix)
    rw [expansion?, hrest]
    rfl

/-- A field in which the dollar signs are plain, if it has a reference, stands for what its parts stand for. -/
theorem expandField_eq_ok (h : Text.contains ['$', '\x7b'] t → PlainDollars (fieldParts t))
    (hout : expansion? env (fieldParts t) = some out) : expandField env t = .ok out := by
  unfold expandField
  split
  · next hcontains => exact expandVariables_eq_ok (h hcontains) hout
  · next hcontains =>
    rw [expansion?_of_not_contains hcontains] at hout
    rw [Option.some.inj hout]

/-- A field stands for what its references and the other characters stand for, whatever the variables are, if and only
if it has no reference or all its other dollar signs are plain. In such a field, two parts that cut no reference in two
stand for what they stand for alone. -/
theorem expandField_references_iff (t : Text) :
    (fieldParts t).flatMap FieldPart.written = t ∧
    ((∀ env out, expansion? env (fieldParts t) = some out → expandField env t = .ok out) ↔
      (Text.contains ['$', '\x7b'] t → PlainDollars (fieldParts t))) ∧
    ∀ a b, t = a ++ b → Whole (fieldParts a) → (a.getLast? = some '$' → b.head? ≠ some '\x7b') →
      (Text.contains ['$', '\x7b'] t → PlainDollars (fieldParts t)) →
      ∀ env u v, expansion? env (fieldParts a) = some u → expansion? env (fieldParts b) = some v →
        expandField env a = .ok u ∧ expandField env b = .ok v ∧ expandField env t = .ok (u ++ v) := by
  refine ⟨flatMap_written_fieldParts t, ⟨fun h hcontains => ?_, fun h env out hout => expandField_eq_ok h hout⟩, ?_⟩
  · by_contra hdollars
    obtain ⟨env, henv⟩ := exists_marking (fieldParts t)
    have hok := h env _ henv.expansion?_eq
    rw [expandField, if_pos hcontains] at hok
    exact henv.expandVariables_ne_marks hdollars hok
  · rintro a b rfl hwhole hseam hdollars env u v hu hv
    have hparts := fieldParts_append hwhole hseam
    have hboth : expansion? env (fieldParts (a ++ b)) = some (u ++ v) := by
      rw [hparts, expansion?_append, hu, hv]
      rfl
    have hpart : ∀ s, s <:+: a ++ b → Text.contains ['$', '\x7b'] s → PlainDollars (fieldParts a ++ fieldParts b) := by
      intro s hs hcontains
      rw [← hparts]
      exact hdollars (Text.contains_iff.2 ((Text.contains_iff.1 hcontains).trans hs))
    refine ⟨expandField_eq_ok (fun h => ?_) hu, expandField_eq_ok (fun h => ?_) hv, expandField_eq_ok hdollars hboth⟩
    · exact (plainDollars_append (hpart a (List.prefix_append a b).isInfix h)).1
    · exact (plainDollars_append (hpart b (List.suffix_append a b).isInfix h)).2

/-- A URL with a variable that is set and one that has a default, in two parts. -/
theorem expandField_references_docs :
    let a := "https://${QT_HOST}".toList
    let b := "/${QT_BRANCH:-main}/$".toList
    let env : Environment := [("QT_HOST".toList, "cdn.example.com".toList)]
    (Text.contains ['$', '\x7b'] (a ++ b) ∧ PlainDollars (fieldParts (a ++ b)) ∧ Whole (fieldParts a)) ∧
      expandField env a = .ok "https://cdn.example.com".toList ∧ expandField env b = .ok "/main/$".toList ∧
      expandField env (a ++ b) = .ok ("https://cdn.example.com".toList ++ "/main/$".toList) := by
  intro a b env
  have hparts : fieldParts a = "https://".toList.map .character ++ [.reference "QT_HOST".toList none] := by
    decide +kernel
  have hparts' : fieldParts (a ++ b) = "https://".toList.map .character ++ [.reference "QT_HOST".toList none,
      .character '/', .reference "QT_BRANCH".toList (some "main".toList), .character '/', .character '$'] := by
    decide +kernel
  have hplain : PlainDollars (fieldParts (a ++ b)) := by
    rw [hparts']
    simp [PlainDollars]
  have hwhole : Whole (fieldParts a) := by
    rw [hparts]
    simp [Whole]
  refine ⟨⟨by decide, hplain, hwhole⟩, ?_⟩
  refine (expandField_references_iff (a ++ b)).2.2 a b rfl hwhole (fun h => ?_) (fun _ => hplain) env _ _ ?_ ?_
  · exact absurd h (by decide)
  · decide +kernel
  · decide +kernel

/-- Two dollar signs without a brace are left as they are in a field without a reference, and become one when a reference
stands somewhere else in the field. -/
theorem expandField_doubledDollar :
    let a := "/a$$b/".toList
    let b := "${QT_X:-y}".toList
    expansion? [] (fieldParts (a ++ b)) = some "/a$$b/y".toList ∧
      expandField [] a = .ok "/a$$b/".toList ∧ expandField [] b = .ok "y".toList ∧
      expandField [] (a ++ b) = .ok "/a$b/y".toList := by
  intro a b
  refine ⟨by decide +kernel, by decide +kernel, by decide +kernel, by decide +kernel⟩

end Pagewright.Config
