import Pagewright.Proofs.Condition.Injection
import Pagewright.Proofs.Json.Fields
import Pagewright.Proofs.Loop.Marker
import Pagewright.Proofs.Loop.Written
import Pagewright.Proofs.Template.Balance

/-!
# Templates as trees

A template is text, placeholders, conditional blocks and loops inside of each other. This module has the tree
of a template, its text (`Template.write`), and what it means (`Template.denote`): a loop is its body for each of
the items, a block is its body if the condition holds for the item of the innermost loop, and a placeholder is
the field of the item of the loop that it names.

The text of a template is made for being read again: what the search for loops, for blocks and for markers sees
of it does not depend on what follows it (`Template.balanced_fill`, `Template.calm_fill`).
-/

namespace Pagewright

open Loop

/-- A template: nothing, or a part and the rest. -/
inductive Template
  | nil
  | text (t : Text) (rest : Template)
  | slot (scopeName field : Text) (rest : Template)
  | block (condition : Text) (body rest : Template)
  | loop (collection scopeName : Text) (body rest : Template)

namespace Template

/-! ## Meaning -/

/-- The loops around a part, the innermost first: the name of the item and its scope. -/
abbrev Env := List (Text × Fields)

namespace Env

/-- The scope of the item of the loop with a name. -/
def scope? (name : Text) : Env → Option Fields
  | [] => none
  | (scopeName, scope) :: env => if scopeName = name then some scope else scope? name env

/-- What a placeholder shows. It stays as it is written when there is no such field. -/
def shows (env : Env) (scopeName field : Text) : Text :=
  match (env.scope? scopeName).bind fun scope => Fields.lookup? scope field with
  | some v => v.display
  | none => Condition.hole scopeName field

/-- Does a condition hold for the item of the innermost loop? -/
def holds : Env → Text → Bool
  | [], _ => false
  | (scopeName, scope) :: _, condition => (Condition.evaluate condition scope scopeName).toOption = some true

end Env

/-- What a template means. -/
def denote (collections : Collections) (env : Env) : Template → Text
  | nil => []
  | text t rest => t ++ rest.denote collections env
  | slot scopeName field rest => env.shows scopeName field ++ rest.denote collections env
  | block condition body rest =>
    (if env.holds condition then body.denote collections env else []) ++ rest.denote collections env
  | loop collection scopeName body rest =>
    (((collections.get? collection).getD []).mapIdx fun n item =>
      body.denote collections ((scopeName, scopeOf item n) :: env)).flatten ++ rest.denote collections env

/-! ## Text -/

/-- The opening tag of a block, behind its `<`. -/
def blockOpening (condition : Text) : Text := "If condition=\"".toList ++ (condition ++ "\">".toList)

/-- The closing tag of a block, behind its `<`. -/
def blockClosing : Text := "/If>".toList

/-- The text of a template in which the placeholders of some loops have been filled in. -/
def fill (env : Env) : Template → Text
  | nil => []
  | text t rest => t ++ rest.fill env
  | slot scopeName field rest => env.shows scopeName field ++ rest.fill env
  | block condition body rest =>
    Element.written (blockOpening condition) (body.fill env) blockClosing ++ rest.fill env
  | loop collection scopeName body rest => written collection scopeName (body.fill env) ++ rest.fill env

/-- The text of a template. -/
def write (t : Template) : Text := t.fill []

/-- How many loops are open inside of each other. -/
def depth : Template → Nat
  | nil => 0
  | text _ rest => rest.depth
  | slot _ _ rest => rest.depth
  | block _ body rest => max body.depth rest.depth
  | loop _ _ body rest => max (body.depth + 1) rest.depth

/-! ## Templates that mean what they say -/

/-- A text that is neither a tag nor a placeholder nor a marker, and no part of one. -/
def IsPlain (t : Text) : Prop := '<' ∉ t ∧ '\x7b' ∉ t ∧ '\x00' ∉ t

/-- A name that can stand in a placeholder and in an attribute. -/
def IsName (name : Text) : Prop :=
  name ≠ [] ∧ ∀ c ∈ name, Placeholder.isPathChar c ∧ c ∉ ".\"<\x7b\x00".toList

/-- A condition that can stand in an attribute, without placeholders and without the name of a loop. -/
def IsCondition (condition : Text) : Prop :=
  '"' ∉ condition ∧ '\x7b' ∉ condition ∧ ¬ tag.map Text.asciiLower <:+: condition.map Text.asciiLower

instance (t : Text) : Decidable (IsPlain t) := inferInstanceAs (Decidable (_ ∧ _ ∧ _))

instance (name : Text) : Decidable (IsName name) := inferInstanceAs (Decidable (_ ∧ _))

instance (condition : Text) : Decidable (IsCondition condition) := inferInstanceAs (Decidable (_ ∧ _ ∧ _))

/-- A template over registered collections of objects. The loops around it are given by their names and items:
no loop has a name that one of those has, and what is shown of the items is plain. -/
def Proper (collections : Collections) (around : List (Text × List Json)) : Template → Prop
  | nil => True
  | text t rest => IsPlain t ∧ rest.Proper collections around
  | slot scopeName field rest =>
    IsName scopeName ∧ IsName field ∧
      (∀ items, (scopeName, items) ∈ around → ∀ item ∈ items, ∀ n v,
        Fields.lookup? (scopeOf item n) field = some v → IsPlain v.display) ∧
      rest.Proper collections around
  | block condition body rest =>
    IsCondition condition ∧ body.Proper collections around ∧ rest.Proper collections around
  | loop collection scopeName body rest =>
    IsName collection ∧ IsName scopeName ∧ scopeName ∉ around.map Prod.fst ∧
      (∃ items, collections.get? collection = some items ∧ (∀ item ∈ items, isObject item) ∧
        body.Proper collections ((scopeName, items) :: around)) ∧
      rest.Proper collections around

/-- The scopes of an environment are those of items of the loops around. -/
def Env.Within (env : Env) (around : List (Text × List Json)) : Prop :=
  ∀ name scope, env.scope? name = some scope →
    ∃ items, (name, items) ∈ around ∧ ∃ item ∈ items, ∃ n, scope = scopeOf item n

section

variable {collections : Collections} {around : List (Text × List Json)} {env : Env} {t : Template}
  {scopeName field name condition collection : Text} {items : List Json} {scope : Fields} {u e : Text} {c : Char}

/-! ## Names and conditions -/

theorem IsName.notMem (h : IsName name) (hc : c ∈ ".\"<\x7b\x00".toList) : c ∉ name := fun hm => (h.2 c hm).2 hc

/-- The number of a round is plain, so a scope shows nothing but plain values if its item does. -/
theorem isPlain_display_scopeOf {fields : Fields} (hfield : IsName field)
    (h : ∀ v, Fields.get? field fields = some v → IsPlain v.display) (n : Nat) (v : Json)
    (hv : Fields.lookup? (scopeOf (.object fields) n) field = some v) : IsPlain v.display := by
  have hget : Fields.get? field (scopeOf (.object fields) n) = some v := by
    rw [Fields.lookup?] at hv
    split at hv
    · next w hw => rw [hw, ← hv]
    · rw [Text.splitOnce?_of_notMem (hfield.notMem (by decide))] at hv
      cases hv
  rw [scopeOf, Fields.get?_insert] at hget
  split at hget
  · obtain rfl := Option.some.inj hget
    have hdigit : ∀ c ∈ Text.ofNat (n + 1), Text.isDigit c := fun c hc => Binary64.isDigit_of_mem_ofNat hc
    refine ⟨fun hm => ?_, fun hm => ?_, fun hm => ?_⟩ <;> exact absurd (hdigit _ hm) (by decide)
  · exact h v hget

theorem Env.Within.cons (h : env.Within around) (hname : (scopeName, items) ∈ around)
    {item : Json} (hitem : item ∈ items) (n : Nat) : Env.Within ((scopeName, scopeOf item n) :: env) around := by
  intro name scope hscope
  rw [Env.scope?] at hscope
  split at hscope
  · next heq =>
    obtain rfl := Option.some.inj hscope
    exact ⟨items, heq ▸ hname, item, hitem, n, rfl⟩
  · exact h name scope hscope

theorem Env.Within.mono (h : env.Within around) : env.Within ((scopeName, items) :: around) := by
  intro name scope hscope
  obtain ⟨items, hm, hitem⟩ := h name scope hscope
  exact ⟨items, List.mem_cons_of_mem _ hm, hitem⟩

theorem Env.Within.scope?_eq_none (h : env.Within around) (hname : scopeName ∉ around.map Prod.fst) :
    env.scope? scopeName = none := by
  cases hs : env.scope? scopeName with
  | none => rfl
  | some scope =>
    obtain ⟨items, hm, -⟩ := h scopeName scope hs
    exact absurd (List.mem_map_of_mem (f := Prod.fst) hm) hname

/-- A placeholder shows something plain, or stays as it is written. -/
theorem shows_cases (hw : env.Within around)
    (hplain : ∀ items, (scopeName, items) ∈ around → ∀ item ∈ items, ∀ n v,
      Fields.lookup? (scopeOf item n) field = some v → IsPlain v.display) :
    IsPlain (env.shows scopeName field) ∨ env.shows scopeName field = Condition.hole scopeName field := by
  rw [Env.shows]
  split
  · next v hv =>
    obtain ⟨scope, hscope, hv⟩ := Option.bind_eq_some_iff.1 hv
    obtain ⟨items, hm, item, hitem, n, rfl⟩ := hw _ _ hscope
    exact .inl (hplain items hm item hitem n v hv)
  · exact .inr rfl

theorem notMem_hole (hs : IsName scopeName) (hf : IsName field) (hc : c ∈ ['<', '\x00']) :
    c ∉ Condition.hole scopeName field := by
  have hmem : c ∈ ".\"<\x7b\x00".toList := by
    rcases List.mem_cons.1 hc with rfl | hc
    · decide
    · rcases List.mem_singleton.1 hc with rfl
      decide
  have hfix : c ≠ '\x7b' ∧ c ≠ '.' ∧ c ≠ '\x7d' := by
    rcases List.mem_cons.1 hc with rfl | hc
    · decide
    · rcases List.mem_singleton.1 hc with rfl
      decide
  simp [Condition.hole, Placeholder.scopeOpening, hs.notMem hmem, hf.notMem hmem, hfix]

theorem notMem_shows (hs : IsName scopeName) (hf : IsName field) (hw : env.Within around)
    (hplain : ∀ items, (scopeName, items) ∈ around → ∀ item ∈ items, ∀ n v,
      Fields.lookup? (scopeOf item n) field = some v → IsPlain v.display) (hc : c ∈ ['<', '\x00']) :
    c ∉ env.shows scopeName field := by
  rcases shows_cases hw hplain with h | h
  · rcases List.mem_cons.1 hc with rfl | hc
    · exact h.1
    · rcases List.mem_singleton.1 hc with rfl
      exact h.2.2
  · rw [h]
    exact notMem_hole hs hf hc

/-! ## Tags -/

/-- A name does not reach over a quote, so it is not read in front of one where it does not occur. -/
theorem afterName?_quote (h : ¬ tag.map Text.asciiLower <:+: e.map Text.asciiLower) (z : Text) :
    Element.afterName? tag (e ++ '"' :: z) = none := by
  apply Element.afterName?_append_eq_none (fun hpre => h hpre.isInfix)
  intro d hd
  obtain rfl : '"' = d := by simpa using hd
  decide

theorem skips_ifOpening : Element.Skips tag ('<' :: "If condition=\"".toList) := by
  intro v hv z
  have hmem : '<' ∉ "If condition=\"".toList := by decide
  rcases List.suffix_cons_iff.1 hv with heq | hsuf
  · obtain ⟨-, rfl⟩ := List.cons.inj heq
    exact ⟨rfl, rfl⟩
  · exact absurd (hsuf.subset List.mem_cons_self) hmem

theorem skips_blockOpening (h : IsCondition condition) : Element.Skips tag ('<' :: blockOpening condition) := by
  have hrest : ∀ e : Text, ¬ tag.map Text.asciiLower <:+: e.map Text.asciiLower →
      Element.Skips tag (e ++ "\">".toList) := by
    intro e he
    induction e with
    | nil => exact Element.skips_of_notMem (by decide)
    | cons d e ih =>
      have he' : ¬ tag.map Text.asciiLower <:+: e.map Text.asciiLower := fun hinf =>
        he (List.infix_cons hinf)
      intro v hv z
      rcases List.suffix_cons_iff.1 hv with heq | hsuf
      · obtain ⟨-, rfl⟩ := List.cons.inj heq
        have htext : e ++ "\">".toList ++ z = e ++ '"' :: '>' :: z := by
          rw [List.append_assoc]
          rfl
        rw [List.append_eq, htext]
        refine ⟨by rw [Element.afterOpening?, afterName?_quote he'], ?_⟩
        cases e with
        | nil => rfl
        | cons c e =>
          by_cases hc : c = '/'
          · subst hc
            have he'' : ¬ tag.map Text.asciiLower <:+: e.map Text.asciiLower := fun hinf =>
              he' (List.infix_cons hinf)
            rw [List.cons_append, Element.afterClosing?, afterName?_quote he'']
          · rw [List.cons_append, Element.afterClosing?]
            intro r hr
            exact absurd (List.cons.inj hr).1 hc
      · exact ih he' v hsuf z
  exact skips_ifOpening.append (hrest condition h.2.2)

theorem skips_blockClosing : Element.Skips tag ('<' :: blockClosing) := by
  intro v hv z
  rcases List.suffix_cons_iff.1 hv with heq | hsuf
  · obtain ⟨-, rfl⟩ := List.cons.inj heq
    exact ⟨rfl, rfl⟩
  · exact absurd (hsuf.subset List.mem_cons_self) (by decide)

theorem opens_loop (hc : '"' ∉ collection) (ha : '"' ∉ scopeName) :
    Element.Opens tag (tag ++ writtenAttributes collection scopeName)
      [("collection".toList, collection), ("as".toList, scopeName)] := by
  intro r
  refine ⟨rfl, writtenAttributes collection scopeName ++ r, ?_, parse?_writtenAttributes hc ha r⟩
  rw [List.append_assoc]
  exact afterOpening?_written collection scopeName r

theorem closes_loop : Element.Closes tag "/ForEach>".toList := fun _ => rfl

theorem written_eq (collection scopeName body : Text) :
    written collection scopeName body =
      Element.written (tag ++ writtenAttributes collection scopeName) body "/ForEach>".toList := by
  have hclosing : closingTag = '<' :: "/ForEach>".toList := by decide
  rw [written, Element.written, hclosing, List.cons_append, List.append_assoc]

private theorem isName_condition : OpenTag.IsName "condition".toList :=
  ⟨by decide +kernel, 'c', "ondition".toList, by decide⟩

theorem opens_block (h : '"' ∉ condition) :
    Element.Opens "If".toList (blockOpening condition) [("condition".toList, condition)] := by
  intro r
  have htext : blockOpening condition ++ r =
      "If ".toList ++ ("condition".toList ++ "=\"".toList ++ condition ++ '"' :: '>' :: r) := by
    have hfirst : "If condition=\"".toList = "If ".toList ++ ("condition".toList ++ "=\"".toList) := by decide
    have hlast : "\">".toList ++ r = '"' :: '>' :: r := rfl
    unfold blockOpening
    rw [hfirst, ← hlast]
    simp only [List.append_assoc]
  rw [htext]
  refine ⟨rfl, ' ' :: ("condition".toList ++ "=\"".toList ++ condition ++ '"' :: '>' :: r), rfl, ?_⟩
  rw [OpenTag.parse?, OpenTag.parseFrom_blank (by decide), OpenTag.parseFrom_attribute isName_condition h,
    OpenTag.parseFrom_end]
  rfl

theorem closes_block : Element.Closes "If".toList blockClosing := fun _ => rfl

/-! ## What is seen of a template -/

/-- The search for loops and their ends sees whole loops in the text of a template. -/
theorem balanced_fill (h : t.Proper collections around) (hw : env.Within around) :
    Element.Balanced tag (t.fill env) := by
  induction t generalizing around with
  | nil => exact .nil tag
  | text t rest ih => exact (Element.skips_of_notMem h.1.1).balanced.append (ih h.2 hw)
  | slot scopeName field rest ih =>
    have hslot := notMem_shows h.1 h.2.1 hw h.2.2.1 (c := '<') (by simp)
    exact (Element.skips_of_notMem hslot).balanced.append (ih h.2.2.2 hw)
  | block condition body rest ihb ihr =>
    have hopening := (skips_blockOpening h.1).balanced
    have hclosing := skips_blockClosing.balanced
    exact (hopening.append ((ihb h.2.1 hw).append hclosing)).append (ihr h.2.2 hw)
  | loop collection scopeName body rest ihb ihr =>
    obtain ⟨hc, ha, -, ⟨items, -, -, hbody⟩, hrest⟩ := h
    have hloop := (ihb hbody hw.mono).written (opens_loop (hc.notMem (by decide)) (ha.notMem (by decide))) closes_loop
    rw [fill, written_eq]
    exact hloop.append (ihr hrest hw)

private theorem calm_blockOpening (h : IsCondition condition) : Calm ('<' :: blockOpening condition) where
  unmarked := by
    have hquote : '"' ∉ tag := by decide
    have hrest : ∀ e : Text, ¬ tag <:+: e → ∀ v, '\x00' :: v <:+ e ++ "\">".toList →
        ∀ z, ¬ tag <+: v ++ z := by
      intro e he
      induction e with
      | nil => exact fun v hv => absurd (hv.subset List.mem_cons_self) (by decide)
      | cons d e ih =>
        have he' : ¬ tag <:+: e := fun hinf => he (List.infix_cons hinf)
        intro v hv z
        rcases List.suffix_cons_iff.1 hv with heq | hsuf
        · obtain ⟨-, rfl⟩ := List.cons.inj heq
          rw [List.append_eq, List.append_assoc]
          -- the tag does not reach over the quote
          intro hpre
          have hpre' : e ++ ['"'] <+: e ++ ("\">".toList ++ z) := ⟨'>' :: z, by simp⟩
          rcases List.prefix_or_prefix_of_prefix hpre hpre' with hp | hp
          · rcases List.prefix_concat_iff.1 hp with heq | hp
            · exact hquote (heq ▸ by simp)
            · exact he' hp.isInfix
          · exact hquote (hp.subset (by simp))
        · exact ih he' v hsuf z
    have hcondition : ¬ tag <:+: condition := fun hinf => h.2.2 (hinf.map Text.asciiLower)
    intro v hv
    have hfirst : '\x00' ∉ '<' :: "If condition=\"".toList := by decide
    have hsuf : '\x00' :: v <:+ condition ++ "\">".toList := by
      obtain ⟨w, hw⟩ := hv
      have htext : w ++ '\x00' :: v = '<' :: "If condition=\"".toList ++ (condition ++ "\">".toList) := hw
      rcases List.append_eq_append_iff.1 htext with ⟨x, hx, hv⟩ | ⟨x, -, hv⟩
      · cases x with
        | nil => exact ⟨[], hv⟩
        | cons d x =>
          obtain ⟨rfl, -⟩ := List.cons.inj hv
          exact absurd (hx ▸ by simp) hfirst
      · exact ⟨x, hv.symm⟩
    exact hrest condition hcondition v hsuf
  behind := fun _ => ⟨[], blockOpening condition, rfl, by simp⟩

/-- An opening tag holds neither a brace nor the end of a marker. -/
theorem notMem_loopOpening (hc : IsName collection) (ha : IsName scopeName) (h : c = '\x7b' ∨ c = '\x00') :
    c ∉ '<' :: (tag ++ writtenAttributes collection scopeName) := by
  have hspecial : c ∈ ".\"<\x7b\x00".toList := by
    rcases h with rfl | rfl <;> decide
  have hfixed : c ∉ '<' :: tag ∧ c ∉ " collection=\"".toList ∧ c ∉ "\" as=\"".toList ∧ c ∉ "\">".toList := by
    rcases h with rfl | rfl <;> decide
  rw [← List.cons_append, List.mem_append]
  unfold writtenAttributes
  rw [List.mem_append, List.mem_append, List.mem_append, List.mem_append]
  rintro (hm | (((hm | hm) | hm) | hm) | hm)
  · exact hfixed.1 hm
  · exact hfixed.2.1 hm
  · exact hc.notMem hspecial hm
  · exact hfixed.2.2.1 hm
  · exact ha.notMem hspecial hm
  · exact hfixed.2.2.2 hm

/-- No marker is seen in the text of a template. -/
theorem calm_fill (h : t.Proper collections around) (hw : env.Within around) : Calm (t.fill env) := by
  induction t generalizing around with
  | nil => exact calm_of_notMem (by simp [fill])
  | text t rest ih => exact (calm_of_notMem h.1.2.2).append (ih h.2 hw)
  | slot scopeName field rest ih =>
    have hslot := notMem_shows h.1 h.2.1 hw h.2.2.1 (c := '\x00') (by simp)
    exact (calm_of_notMem hslot).append (ih h.2.2.2 hw)
  | block condition body rest ihb ihr =>
    have hopening := calm_blockOpening h.1
    have hclosing : Calm ('<' :: blockClosing) := calm_of_notMem (by decide)
    exact (hopening.append ((ihb h.2.1 hw).append hclosing)).append (ihr h.2.2 hw)
  | loop collection scopeName body rest ihb ihr =>
    obtain ⟨hc, ha, -, ⟨items, -, -, hbody⟩, hrest⟩ := h
    have hopening : Calm ('<' :: (tag ++ writtenAttributes collection scopeName)) :=
      calm_of_notMem (notMem_loopOpening hc ha (.inr rfl))
    have hclosing : Calm ('<' :: "/ForEach>".toList) := calm_of_notMem (by decide)
    rw [fill, written_eq]
    exact (hopening.append ((ihb hbody hw.mono).append hclosing)).append (ihr hrest hw)

end

end Template

end Pagewright
