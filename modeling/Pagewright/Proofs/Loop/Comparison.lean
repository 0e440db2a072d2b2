import Pagewright.Proofs.Condition.Comparison
import Pagewright.Proofs.Loop.Shadowing

/-!
# Comparing a field inside of one loop and of two

A block `<If condition="{o.f} === 't'">` is about a field of the item of the loop `o`. In the body of that loop the
field is put into the condition in quotes, and the block is shown just if the field is the text `t`
(`Loop.renderItem_comparison`). In the body of a further loop the outer item has been put into the source of the block
before there is a round of the inner loop, and without quotes, so the block is shown just if the field is code that
holds in the scope of the inner item (`Site.expandLoops_nested_comparison`).

For no string that can be written as a literal are these the same: such code does not look at the literal where the
inner item has no strings. `Site.expandLoops_comparison_iff` puts the two cases together.
-/

namespace Pagewright

namespace Loop

open Template Condition

variable {scopeName outer inner field s t a b left body pre post before shown after : Text} {item innerItem : Json}
  {items : List Json} {scope : Fields} {n k l : Nat}

/-! ## Blocks -/

/-- A block that compares what is written in front of the sign with a literal. -/
def comparisonBlock (left t body : Text) : Text :=
  Element.written (blockOpening (comparison left t)) body blockClosing

/-- No tag of a loop begins in the text, when a blank or a quote follows it. -/
def Untagged (t : Text) : Prop := Element.Skips tag (t ++ [' ']) ∧ Element.Skips tag (t ++ ['\''])

theorem untagged_of_notMem (h : '<' ∉ t) : Untagged t := by
  constructor
  · apply Element.skips_of_notMem
    simp [h]
  · apply Element.skips_of_notMem
    simp [h]

/-- The placeholder of the field can stand in a condition. -/
structure IsOperand (scopeName field : Text) : Prop where
  name : IsPlainName scopeName
  ne_nil : field ≠ []
  path : ∀ c ∈ field, Placeholder.isPathChar c ∧ c ∉ "\"\x7b".toList
  untagged : Untagged (hole scopeName field)

theorem IsOperand.quote_notMem (h : IsOperand scopeName field) : '"' ∉ hole scopeName field := by
  have hname : '"' ∉ scopeName := h.name.notMem (by decide)
  have hfield : '"' ∉ field := fun hm => (h.path _ hm).2 (by decide)
  simp [hole, Placeholder.scopeOpening, hname, hfield]

/-- The text of a block, in the parts in which an item is put into it. -/
theorem comparisonBlock_append (left t body z : Text) :
    comparisonBlock left t body ++ z = ('<' :: "If condition=\"".toList) ++
      (left ++ ((" === ".toList ++ (quoted t ++ "\">".toList)) ++ (body ++ ('<' :: blockClosing ++ z)))) := by
  unfold comparisonBlock Element.written blockOpening comparison
  simp only [List.cons_append, List.append_assoc]

/-- No loop begins in a block whose parts have no tags of loops. -/
theorem skips_comparisonBlock (hleft : Untagged left) (ht : Untagged t) (hbody : Element.Skips tag body) :
    Element.Skips tag (comparisonBlock left t body) := by
  have hsign : Element.Skips tag "=== '".toList := Element.skips_of_notMem (by decide)
  have hend : Element.Skips tag "\">".toList := Element.skips_of_notMem (by decide)
  have h := skips_ifOpening.append
    (hleft.1.append (hsign.append (ht.2.append (hend.append (hbody.append skips_blockClosing)))))
  have htext : comparisonBlock left t body = ('<' :: "If condition=\"".toList) ++ ((left ++ [' ']) ++
      ("=== '".toList ++ ((t ++ ['\'']) ++ ("\">".toList ++ (body ++ '<' :: blockClosing))))) := by
    have hsplit : " === ".toList ++ ['\''] = ' ' :: "=== '".toList := by decide
    have hquoted : ∀ w : Text, " === ".toList ++ ('\'' :: w) = [' '] ++ ("=== '".toList ++ w) := fun w => by
      rw [← List.singleton_append, ← List.append_assoc, hsplit]
      rfl
    rw [← List.append_nil (comparisonBlock left t body), comparisonBlock_append]
    simp only [quoted, List.cons_append, List.append_assoc, List.append_nil, hquoted, List.nil_append]
  rwa [htext]

/-! ## The block in a round -/

/-- A block between markup stands for its body or for nothing. -/
theorem resolveBlocks_comparisonBlock (hleft : '"' ∉ left) (ht : IsLiteral t) (hbefore : IsMarkup before)
    (hbody : IsMarkup body) (hafter : IsMarkup after) (scope : Fields) (scopeName : Text) :
    resolveBlocks scope scopeName (before ++ (comparisonBlock left t body ++ after)) =
      before ++ ((if holds (comparison left t) scope scopeName then body else []) ++ after) := by
  have hself : ∀ {u : Text}, IsMarkup u → resolveBlocks scope scopeName u = u := by
    intro u hu
    have h := resolveBlocks_of_skips hu.blocks scope scopeName []
    rwa [resolveBlocks_nil, List.append_nil] at h
  have hquote : '"' ∉ comparison left t := notMem_comparison hleft (ht.notMem (by decide)) (by decide)
  rw [resolveBlocks_of_skips hbefore.blocks, comparisonBlock, resolveBlocks_block hquote hbody.blocks.balanced,
    hself hbody, hself hafter]

/-- In a round the block is shown if its condition holds in the scope of the item. -/
theorem renderItem_comparisonBlock (hleft : '"' ∉ left) (hloops : Untagged left) (ht : IsLiteral t) (htag : Untagged t)
    (hbefore : IsMarkup before) (hbody : IsMarkup body) (hafter : IsMarkup after) (item : Json) (n : Nat)
    (scopeName : Text) :
    renderItem (before ++ (comparisonBlock left t body ++ after)) item n scopeName =
      fillItem item n scopeName
        (before ++ ((if holds (comparison left t) (scopeOf item n) scopeName then body else []) ++ after)) := by
  have hskips : Element.Skips tag (before ++ (comparisonBlock left t body ++ after)) :=
    hbefore.loops.append ((skips_comparisonBlock hloops htag hbody.loops).append hafter.loops)
  rw [renderItem_of_skips_loops hskips, resolveBlocks_comparisonBlock hleft ht hbefore hbody hafter]

/-- In the body of its own loop a field is compared as a string. -/
theorem renderItem_comparison (h : IsOperand scopeName field) (ht : IsLiteral t) (htag : Untagged t)
    (hbefore : IsMarkup before) (hbody : IsMarkup body) (hafter : IsMarkup after)
    (hs : Fields.lookup? (scopeOf item n) field = some (.string s)) :
    renderItem (before ++ (comparisonBlock (hole scopeName field) t body ++ after)) item n scopeName =
      fillItem item n scopeName (before ++ ((if s = t then body else []) ++ after)) := by
  have hpath : ∀ c ∈ field, Placeholder.isPathChar c := fun c hc => (h.path c hc).1
  rw [renderItem_comparisonBlock h.quote_notMem h.untagged ht htag hbefore hbody hafter]
  simp only [holds_comparison_hole h.ne_nil hpath hs ht]

/-! ## The block in a loop in the body -/

theorem IsOperand.isReference (h : IsOperand scopeName field) : IsReference field [] none where
  ne_nil := h.ne_nil
  path := fun c hc => (h.path c hc).1
  tail := rfl
  single := by
    rw [List.append_nil]
    exact fun hm => (h.path _ hm).2 (by decide)

theorem reference_nil (scopeName field : Text) : reference scopeName field [] = hole scopeName field := by
  simp [reference, hole, Placeholder.scopeOpening]

theorem IsOperand.closed_hole (h : IsOperand scopeName field) : Placeholder.Closed (hole scopeName field) := by
  have hclosed := closed_reference h.isReference (h.name.notMem (c := '\x7b') (by decide))
  rwa [reference_nil] at hclosed

theorem IsOperand.nameItem_hole (h : IsOperand scopeName field) (item : Json) :
    nameItem item scopeName (hole scopeName field) = hole scopeName field := by
  have hnamed := nameItem_reference h.isReference (h.name.notMem (c := '\x7b') (by decide)) item
  rwa [reference_nil] at hnamed

/-- The string takes the place of its placeholder without quotes. -/
theorem IsOperand.fillItem_hole (h : IsOperand scopeName field)
    (hs : Fields.lookup? (scopeOf item n) field = some (.string s)) :
    fillItem item n scopeName (hole scopeName field) = s := by
  have hfilled := fillItem_reference h.isReference (h.name.notMem (c := '\x7b') (by decide)) item n
  rw [reference_nil, shown, hs] at hfilled
  exact hfilled

theorem brace_notMem_sign (ht : IsLiteral t) : '\x7b' ∉ " === ".toList ++ (quoted t ++ "\">".toList) := by
  have hempty : '\x7b' ∉ ([] : Text) := by simp
  have hcomparison : '\x7b' ∉ comparison [] t := brace_notMem_comparison hempty ht
  rw [← List.append_assoc, List.mem_append, not_or]
  exact ⟨hcomparison, by decide⟩

theorem closed_comparisonBlock (hleft : Placeholder.Closed left) (ht : IsLiteral t) (hbody : Placeholder.Closed body) :
    Placeholder.Closed (comparisonBlock left t body) := by
  have hopening : Placeholder.Closed ('<' :: "If condition=\"".toList) := by decide
  have hclosing : Placeholder.Closed ('<' :: blockClosing ++ []) := by decide
  have hsign := Placeholder.closed_of_notMem (brace_notMem_sign ht)
  rw [← List.append_nil (comparisonBlock left t body), comparisonBlock_append]
  exact hopening.append (hleft.append (hsign.append (hbody.append hclosing)))

/-- The item as a whole is not put into the condition. -/
theorem nameItem_comparisonBlock (h : IsOperand scopeName field) (ht : IsLiteral t) (hbody : Placeholder.Closed body)
    (item : Json) (z : Text) :
    nameItem item scopeName (comparisonBlock (hole scopeName field) t body ++ z) =
      comparisonBlock (hole scopeName field) t (nameItem item scopeName body) ++ nameItem item scopeName z := by
  have hname : '\x7d' ∉ scopeName := h.name.notMem (by decide)
  have hopening : '\x7b' ∉ '<' :: "If condition=\"".toList := by decide
  have hclosing : '\x7b' ∉ '<' :: blockClosing := by decide
  rw [comparisonBlock_append, nameItem_append_of_notMem hname hopening, nameItem_append hname h.closed_hole,
    h.nameItem_hole, nameItem_append_of_notMem hname (brace_notMem_sign ht), nameItem_append hname hbody,
    nameItem_append_of_notMem hname hclosing, comparisonBlock_append]

/-- The fields of an item are put into the source of a block, into its condition as well. -/
theorem fillItem_comparisonBlock (h : IsOperand scopeName field) (ht : IsLiteral t)
    (hbody : Placeholder.Closed body) (hnamed : Placeholder.Closed (nameItem item scopeName body))
    (hs : Fields.lookup? (scopeOf item n) field = some (.string s)) (z : Text) :
    fillItem item n scopeName (comparisonBlock (hole scopeName field) t body ++ z) =
      comparisonBlock s t (fillItem item n scopeName body) ++ fillItem item n scopeName z := by
  have hname : '\x7d' ∉ scopeName := h.name.notMem (by decide)
  have hopening : '\x7b' ∉ '<' :: "If condition=\"".toList := by decide
  have hclosing : '\x7b' ∉ '<' :: blockClosing := by decide
  have hhole : Placeholder.Closed (nameItem item scopeName (hole scopeName field)) := by
    rw [h.nameItem_hole]
    exact h.closed_hole
  rw [comparisonBlock_append, fillItem_append_of_notMem hname hopening, fillItem_append hname h.closed_hole hhole,
    h.fillItem_hole hs, fillItem_append_of_notMem hname (brace_notMem_sign ht), fillItem_append hname hbody hnamed,
    fillItem_append_of_notMem hname hclosing, comparisonBlock_append]

/-- The body of the inner loop is a block that compares a field of the outer item with a literal, and markup around
the block and in it that stays markup when any of the outer items is put in. -/
structure Nest.Compares (nest : Nest) (outerItems : List Json) (field t before shown after : Text) : Prop where
  body : nest.body = before ++ (comparisonBlock (hole nest.outer field) t shown ++ after)
  literal : IsLiteral t
  untagged : Untagged t
  before : Surrounds outerItems nest.outer before
  shown : Surrounds outerItems nest.outer shown
  after : Surrounds outerItems nest.outer after

/-- What two items make of the body of the inner loop when the block is shown or left out. -/
def Nest.decided (nest : Nest) (before shown after : Text) (p : Prop) [Decidable p] (item : Json) (k : Nat)
    (innerItem : Json) (l : Nat) : Text :=
  fillItem innerItem l nest.inner (fillItem item k nest.outer (before ++ ((if p then shown else []) ++ after)))

section Compares

variable {nest : Nest} {outerItems : List Json} (h : IsOperand nest.outer field)
  (hbody : nest.Compares outerItems field t before shown after)

include h hbody

theorem Nest.Compares.fillItem_body (hitem : item ∈ outerItems)
    (hs : Fields.lookup? (scopeOf item k) field = some (.string s)) :
    fillItem item k nest.outer nest.body =
      fillItem item k nest.outer before ++
        (comparisonBlock s t (fillItem item k nest.outer shown) ++ fillItem item k nest.outer after) := by
  rw [hbody.body, fillItem_append (h.name.notMem (by decide)) hbody.before.markup.closed (hbody.before.named _ hitem),
    fillItem_comparisonBlock h hbody.literal hbody.shown.markup.closed (hbody.shown.named _ hitem) hs]

theorem Nest.Compares.isInnerBody {word : Json → Text} (hword : ∀ item ∈ outerItems, Untagged (word item))
    (hs : ∀ item ∈ outerItems, ∀ n, Fields.lookup? (scopeOf item n) field = some (.string (word item))) :
    IsInnerBody outerItems nest.outer nest.body where
  closed := by
    rw [hbody.body]
    exact hbody.before.markup.closed.append ((closed_comparisonBlock h.closed_hole hbody.literal
      hbody.shown.markup.closed).append hbody.after.markup.closed)
  balanced := by
    rw [hbody.body]
    exact (hbody.before.markup.loops.append ((skips_comparisonBlock h.untagged hbody.untagged
      hbody.shown.markup.loops).append hbody.after.markup.loops)).balanced
  named := fun item hitem => by
    rw [hbody.body, nameItem_append (h.name.notMem (by decide)) hbody.before.markup.closed,
      nameItem_comparisonBlock h hbody.literal hbody.shown.markup.closed]
    exact (hbody.before.named _ hitem).append ((closed_comparisonBlock h.closed_hole hbody.literal
      (hbody.shown.named _ hitem)).append (hbody.after.named _ hitem))
  filled := fun item hitem n => by
    rw [hbody.fillItem_body h hitem (hs item hitem n)]
    exact ((hbody.before.filled _ hitem n).loops.append ((skips_comparisonBlock (hword item hitem) hbody.untagged
      (hbody.shown.filled _ hitem n).loops).append (hbody.after.filled _ hitem n).loops)).balanced

/-- The rounds of the inner loop show the block if the string of the outer item is code that holds for the inner one. -/
theorem Nest.Compares.roundsOf_fillItem (hitem : item ∈ outerItems) (hquote : '"' ∉ s) (hloops : Untagged s)
    (hs : Fields.lookup? (scopeOf item k) field = some (.string s)) (items : List Json) :
    Site.roundsOf (fillItem item k nest.outer nest.body) items nest.inner = items.mapIdx fun l innerItem =>
      nest.decided before shown after (holds (comparison s t) (scopeOf innerItem l) nest.inner) item k innerItem l := by
  have hname : '\x7d' ∉ nest.outer := h.name.notMem (by decide)
  rw [Site.roundsOf]
  refine List.mapIdx_eq_mapIdx_iff.2 fun l _ => ?_
  rw [hbody.fillItem_body h hitem hs, renderItem_comparisonBlock hquote hloops hbody.literal hbody.untagged
    (hbody.before.filled _ hitem k) (hbody.shown.filled _ hitem k) (hbody.after.filled _ hitem k), Nest.decided,
    fillItem_append hname hbody.before.markup.closed (hbody.before.named _ hitem)]
  split
  · rw [fillItem_append hname hbody.shown.markup.closed (hbody.shown.named _ hitem)]
  · rfl

end Compares

end Loop

namespace Site

open Loop Condition

variable {outer inner field collection s t before shown after : Text} {items outerItems : List Json} {n : ℕ}

section Compares

variable {σ : Type} [Storage σ] {site : Site σ} {frontmatter : Option Fields}

/-- Directly in the body of its loop: the block is shown in the rounds of the items whose field is the literal. -/
theorem expandLoops_comparison (h : IsOperand outer field) (hcollection : '"' ∉ collection) (ht : IsLiteral t)
    (htag : Untagged t) (hbefore : IsMarkup before) (hshown : IsMarkup shown) (hafter : IsMarkup after)
    (word : Json → Text)
    (hs : ∀ item ∈ items, ∀ k, Fields.lookup? (scopeOf item k) field = some (.string (word item)))
    (hdata : site.loopData? frontmatter collection = .ok (some (.array items))) :
    site.expandLoops frontmatter
        (written collection outer (before ++ (comparisonBlock (hole outer field) t shown ++ after))) =
      inSequence (site.expandLoopsWithin frontmatter site.stack) (items.mapIdx fun k item =>
        fillItem item k outer (before ++ ((if word item = t then shown else []) ++ after))) := by
  have hskips : Element.Skips tag (before ++ (comparisonBlock (hole outer field) t shown ++ after)) :=
    hbefore.loops.append ((skips_comparisonBlock h.untagged htag hshown.loops).append hafter.loops)
  have hread : IsBody (before ++ (comparisonBlock (hole outer field) t shown ++ after)) :=
    isBody_of_balanced hskips.balanced
  rw [expandLoops, expandLoopsWithin_written hcollection (h.name.notMem (by decide)) hread hdata, roundsOf]
  refine congrArg _ (List.mapIdx_eq_mapIdx_iff.2 fun k hk => ?_)
  exact renderItem_comparison h ht htag hbefore hshown hafter (hs _ (List.getElem_mem hk) k)

/-- In the body of a loop in that body: the block is shown in the rounds of the inner items in whose scope the field
of the outer item, read as code, is the literal. -/
theorem expandLoops_nested_comparison {nest : Nest} (h : IsOperand nest.outer field) (hframes : nest.Frames outerItems)
    (hbody : nest.Compares outerItems field t before shown after)
    (word : Json → Text) (hword : ∀ item ∈ outerItems, '"' ∉ word item ∧ Untagged (word item))
    (hs : ∀ item ∈ outerItems, ∀ k, Fields.lookup? (scopeOf item k) field = some (.string (word item)))
    (houter : site.loopData? frontmatter nest.outerCollection = .ok (some (.array outerItems)))
    (hinner : site.loopData? frontmatter nest.innerCollection = .ok (some (.array items)))
    (hstack : site.stack = n + 1) :
    site.expandLoops frontmatter nest.text =
      inSequence id (outerItems.mapIdx fun k item =>
        (inSequence (site.expandLoopsWithin frontmatter n) (items.mapIdx fun l innerItem =>
          nest.decided before shown after (holds (comparison (word item) t) (scopeOf innerItem l) nest.inner) item k
            innerItem l)).map (Except.map fun out =>
              fillItem item k nest.outer nest.pre ++ (out ++ fillItem item k nest.outer nest.post))) := by
  rw [expandLoops_nest hframes (hbody.isInnerBody h (fun item hitem => (hword item hitem).2) hs) houter hinner hstack]
  refine congrArg (inSequence id) (List.mapIdx_eq_mapIdx_iff.2 fun k hk => ?_)
  have hitem := List.getElem_mem hk
  rw [hbody.roundsOf_fillItem h hitem (hword _ hitem).1 (hword _ hitem).2 (hs _ hitem k)]

/-- Texts without tags stay as they are. -/
theorem inSequence_eq_flatten {ts : List Text} (h : ∀ t ∈ ts, '<' ∉ t) :
    inSequence (site.expandLoopsWithin frontmatter n) ts = some (.ok ts.flatten) := by
  apply inSequence_eq_ok_iff.2
  refine ⟨ts, List.map_congr_left fun t ht => ?_, rfl⟩
  exact expandLoopsWithin_eq_self (Element.skips_of_notMem (h t ht)) n

end Compares

/-! ## One round for each inner item -/

/-- A site with an item that has one field in one collection, and copies of another item in a second one. -/
def comparisonSite (field s : Text) (innerItem : Json) (copies : ℕ) : Site MemoryStore where
  store := .empty
  settings := default
  collections := [(['c'], [.object [(field, .string s)]]), (['d'], List.replicate copies innerItem)]

/-- The block of a round is told by its first character. -/
private theorem eq_of_flatten_eq {as bs : List Text} (ha : ∀ a ∈ as, a = ['1', '0'] ∨ a = ['0'])
    (hb : ∀ b ∈ bs, b = ['1', '0'] ∨ b = ['0']) (h : as.flatten = bs.flatten) : as = bs := by
  induction as generalizing bs with
  | nil =>
    cases bs with
    | nil => rfl
    | cons b bs =>
      rcases hb b List.mem_cons_self with rfl | rfl <;> cases h
  | cons a as ih =>
    obtain ⟨ha, has⟩ := List.forall_mem_cons.1 ha
    cases bs with
    | nil => rcases ha with rfl | rfl <;> cases h
    | cons b bs =>
      obtain ⟨hb, hbs⟩ := List.forall_mem_cons.1 hb
      rcases ha with rfl | rfl <;> rcases hb with rfl | rfl
      all_goals simp only [List.flatten_cons, List.cons_append, List.nil_append, List.cons.injEq, true_and] at h
      · rw [ih has hbs h]
      · exact absurd h.1 (by decide)
      · exact absurd h.1 (by decide)
      · rw [ih has hbs h]

/-- The rounds of the last copy show their blocks alike if all rounds come out alike. -/
private theorem iff_of_rounds_eq {p q : Json → ℕ → Prop} [∀ v l, Decidable (p v l)] [∀ v l, Decidable (q v l)]
    {v : Json} {l : ℕ}
    (h : ((List.replicate (l + 1) v).mapIdx fun l v => if p v l then ['1', '0'] else ['0']).flatten =
      ((List.replicate (l + 1) v).mapIdx fun l v => if q v l then ['1', '0'] else ['0']).flatten) :
    p v l ↔ q v l := by
  have hbit : ∀ (p : Json → ℕ → Prop) [∀ v l, Decidable (p v l)],
      ∀ u ∈ (List.replicate (l + 1) v).mapIdx fun l v => if p v l then ['1', '0'] else ['0'],
        u = ['1', '0'] ∨ u = ['0'] := by
    intro p _ u hu
    obtain ⟨k, hk, rfl⟩ := List.mem_mapIdx.1 hu
    split
    · exact .inl rfl
    · exact .inr rfl
  have hrounds := eq_of_flatten_eq (hbit p) (hbit q) h
  have hround := List.mapIdx_eq_mapIdx_iff.1 hrounds l (by simp)
  simp only [List.getElem_replicate] at hround
  by_cases hp : p v l <;> by_cases hq : q v l
  all_goals simp [hp, hq] at hround ⊢

/-- Two loops with a block in the inner one that shows a one, and a zero behind it. -/
def comparisonNest (outer inner field t : Text) : Nest :=
  overlapNest outer inner (comparisonBlock (hole outer field) t ['1'] ++ ['0'])

private theorem compares_comparisonNest (ht : IsLiteral t) (htag : Untagged t) (items : List Json) :
    (comparisonNest outer inner field t).Compares items field t [] ['1'] ['0'] := by
  have hplain : ∀ u : Text, '<' ∉ u → '\x7b' ∉ u → Surrounds items outer u := fun u hlt hbrace =>
    surrounds_of_notMem (isMarkup_of_notMem (Placeholder.closed_of_notMem hbrace) hlt) hbrace items outer
  exact ⟨rfl, ht, htag, hplain _ (by decide) (by decide), hplain _ (by decide) (by decide),
    hplain _ (by decide) (by decide)⟩

/-- What comes out of the two loops is the row of their rounds. -/
private theorem inSequence_comparisonNest {p : Json → ℕ → Prop} [∀ v l, Decidable (p v l)] (site : Site MemoryStore)
    (item innerItem : Json) (copies : ℕ) :
    inSequence id ([item].mapIdx fun k item =>
        (inSequence (site.expandLoopsWithin none n) ((List.replicate copies innerItem).mapIdx fun l innerItem =>
          (comparisonNest outer inner field t).decided [] ['1'] ['0'] (p innerItem l) item k innerItem l)).map
            (Except.map fun out => fillItem item k outer [] ++ (out ++ fillItem item k outer []))) =
      some (.ok (((List.replicate copies innerItem).mapIdx fun l v =>
        if p v l then ['1', '0'] else ['0']).flatten)) := by
  have hnil : ∀ k, fillItem item k outer [] = [] := fun k => fillItem_of_notMem (by simp)
  have hdecided : ∀ (k l : ℕ) (v : Json),
      (comparisonNest outer inner field t).decided [] ['1'] ['0'] (p v l) item k v l =
        if p v l then ['1', '0'] else ['0'] := by
    intro k l v
    have hfill : ∀ (w : Json) (m : ℕ) (name : Text), fillItem w m name (if p v l then ['1', '0'] else ['0']) =
        if p v l then ['1', '0'] else ['0'] := by
      intro w m name
      apply fillItem_of_notMem
      split <;> decide
    have hround : ([] ++ ((if p v l then ['1'] else []) ++ ['0']) : Text) = if p v l then ['1', '0'] else ['0'] := by
      split <;> rfl
    rw [Nest.decided, hround, hfill]
    apply hfill
  have hplain : ∀ u ∈ (List.replicate copies innerItem).mapIdx fun l v => if p v l then ['1', '0'] else ['0'],
      '<' ∉ (u : Text) := by
    intro u hu
    obtain ⟨l, hl, rfl⟩ := List.mem_mapIdx.1 hu
    split <;> decide
  simp only [List.mapIdx_cons, List.mapIdx_nil, hdecided, hnil, inSequence_eq_flatten hplain]
  simp [inSequence, Except.map]

/-- In two loops inside of each other the block is shown just if the string is the literal, whatever stands around it
and whatever the items are. -/
def ComparesNested (outer inner field s : Text) : Prop :=
  ∀ (σ : Type) [Storage σ] (site : Site σ) (frontmatter : Option Fields) (nest : Nest) (outerItems items : List Json)
    (t before shown after : Text) (n : ℕ), nest.outer = outer → nest.inner = inner → nest.Frames outerItems →
    nest.Compares outerItems field t before shown after →
    (∀ item ∈ outerItems, ∀ k, Fields.lookup? (scopeOf item k) field = some (.string s)) →
    site.loopData? frontmatter nest.outerCollection = .ok (some (.array outerItems)) →
    site.loopData? frontmatter nest.innerCollection = .ok (some (.array items)) → site.stack = n + 1 →
    site.expandLoops frontmatter nest.text =
      inSequence id (outerItems.mapIdx fun k item =>
        (inSequence (site.expandLoopsWithin frontmatter n) (items.mapIdx fun l innerItem =>
          nest.decided before shown after (s = t) item k innerItem l)).map (Except.map fun out =>
            fillItem item k outer nest.pre ++ (out ++ fillItem item k outer nest.post)))

/-- If the loops show the block just if the string is the literal, the string has to be code that says so. -/
theorem holds_iff_of_comparesNested (h : IsOperand outer field) (hfield : field ≠ "loop".toList)
    (hinner : IsPlainName inner) (hquote : '"' ∉ s) (hloops : Untagged s) (hright : ComparesNested outer inner field s)
    (ht : IsLiteral t) (htag : Untagged t) (innerItem : Json) (l : ℕ) :
    holds (comparison s t) (scopeOf innerItem l) inner = true ↔ s = t := by
  let nest := comparisonNest outer inner field t
  let site := comparisonSite field s innerItem (l + 1)
  have hframes : nest.Frames [.object [(field, .string s)]] := frames_overlapNest h.name hinner _ _
  have hcompares : nest.Compares [.object [(field, .string s)]] field t [] ['1'] ['0'] :=
    compares_comparisonNest ht htag _
  have hs : ∀ item ∈ [Json.object [(field, .string s)]], ∀ k,
      Fields.lookup? (scopeOf item k) field = some (.string s) := by
    intro item hitem k
    obtain rfl := List.mem_singleton.1 hitem
    rw [lookup?_scopeOf_single, if_neg (Ne.symm hfield)]
  have houterData : site.loopData? none ['c'] = .ok (some (.array [.object [(field, .string s)]])) := rfl
  have hinnerData : site.loopData? none ['d'] = .ok (some (.array (List.replicate (l + 1) innerItem))) := rfl
  obtain ⟨n, hn⟩ : ∃ n, site.stack = n + 1 := ⟨9999, rfl⟩
  have hactual := expandLoops_nested_comparison h hframes hcompares (fun _ => s) (fun _ _ => ⟨hquote, hloops⟩) hs
    houterData hinnerData hn
  have hexpected := hright MemoryStore site none nest _ _ t [] ['1'] ['0'] n rfl rfl hframes hcompares hs houterData
    hinnerData hn
  have hcode := hactual.trans
    (inSequence_comparisonNest (p := fun v l => holds (comparison s t) (scopeOf v l) inner = true) _ _ _ _)
  have hstring := hexpected.trans (inSequence_comparisonNest (p := fun _ _ => s = t) _ _ _ _)
  exact iff_of_rounds_eq (Except.ok.inj (Option.some.inj (hcode.symm.trans hstring)))

/-- A comparison of a field of an item with a literal. Directly in the body of the loop the block is shown in exactly
the rounds of the items whose field is the literal, whatever the items, the literal and the markup around are. In a loop
in that body this is so for a string just if no literal can be the string, and the string as code holds in no scope: its
characters have become part of the condition. -/
theorem expandLoops_comparison_iff (h : IsOperand outer field) (hfield : field ≠ "loop".toList)
    (hinner : IsPlainName inner) :
    (∀ (σ : Type) [Storage σ] (site : Site σ) (frontmatter : Option Fields) (collection : Text) (items : List Json)
        (word : Json → Text) (t before shown after : Text), '"' ∉ collection → IsLiteral t → Untagged t →
        IsMarkup before → IsMarkup shown → IsMarkup after →
        (∀ item ∈ items, ∀ k, Fields.lookup? (scopeOf item k) field = some (.string (word item))) →
        site.loopData? frontmatter collection = .ok (some (.array items)) →
        site.expandLoops frontmatter
            (written collection outer (before ++ (comparisonBlock (hole outer field) t shown ++ after))) =
          inSequence (site.expandLoopsWithin frontmatter site.stack) (items.mapIdx fun k item =>
            fillItem item k outer (before ++ ((if word item = t then shown else []) ++ after)))) ∧
      ∀ s, '"' ∉ s → Untagged s →
        (ComparesNested outer inner field s ↔
          ¬ IsLiteral s ∧ ∀ t, IsLiteral t → Untagged t → ∀ innerItem l,
            holds (comparison s t) (scopeOf innerItem l) inner = false) := by
  refine ⟨?_, fun s hquote hloops => ⟨fun hright => ?_, fun ⟨hliteral, hnever⟩ => ?_⟩⟩
  · intro σ _ site frontmatter collection items word t before shown after hcollection ht htag hbefore hshown hafter hs
      hdata
    exact expandLoops_comparison h hcollection ht htag hbefore hshown hafter word hs hdata
  · have hholds : ∀ {t}, IsLiteral t → Untagged t → ∀ innerItem l,
        holds (comparison s t) (scopeOf innerItem l) inner = true ↔ s = t := fun ht htag innerItem l =>
      holds_iff_of_comparesNested h hfield hinner hquote hloops hright ht htag innerItem l
    have hliteral : ¬ IsLiteral s := by
      intro hs
      obtain ⟨t, ht, htag, hne⟩ : ∃ t, IsLiteral t ∧ Untagged t ∧ s ≠ t := by
        by_cases hzero : s = ['0']
        · exact ⟨['1'], by decide, untagged_of_notMem (by decide), by rw [hzero]; decide⟩
        · exact ⟨['0'], by decide, untagged_of_notMem (by decide), hzero⟩
      -- the inner item without fields has no strings in its scope
      have hscope : ∀ f ∈ scopeOf (.object []) 0, f.2.IsStringless :=
        List.forall_mem_singleton.2 (.number _)
      have hsame := holds_comparison_congr hs hscope inner hs ht
      have hself := (hholds hs hloops (.object []) 0).2 rfl
      exact hne ((hholds ht htag (.object []) 0).1 (hsame ▸ hself))
    refine ⟨hliteral, fun t ht htag innerItem l => ?_⟩
    have hne : s ≠ t := by
      rintro rfl
      exact hliteral ht
    by_contra htrue
    exact hne ((hholds ht htag innerItem l).1 (by simpa using htrue))
  · rintro σ _ site frontmatter nest outerItems items t before shown after n rfl rfl hframes hbody hs houterData
      hinnerData hstack
    have hne : s ≠ t := by
      rintro rfl
      exact hliteral hbody.literal
    rw [expandLoops_nested_comparison h hframes hbody (fun _ => s) (fun _ _ => ⟨hquote, hloops⟩) hs houterData
      hinnerData hstack]
    simp only [hnever t hbody.literal hbody.untagged, hne, Bool.false_eq_true]

/-- The kind of an item is compared with a literal, directly in its loop. In a further loop this would go wrong. -/
theorem expandLoops_comparison_page :
    (comparisonSite "kind".toList "page".toList (.object []) 1).expandLoops none
        (written ['c'] ['o'] (['['] ++ (comparisonBlock (hole ['o'] "kind".toList) "page".toList ['Y'] ++ [']']))) =
      some (.ok "[Y]".toList) ∧
    ¬ ComparesNested ['o'] ['i'] "kind".toList "page".toList := by
  have hplain : ∀ u : Text, '<' ∉ u → '\x7b' ∉ u → IsMarkup u := fun u hlt hbrace =>
    isMarkup_of_notMem (Placeholder.closed_of_notMem hbrace) hlt
  have hoperand : IsOperand ['o'] "kind".toList :=
    ⟨by decide, by decide, by decide, untagged_of_notMem (by decide)⟩
  have hliteral : IsLiteral "page".toList := by decide
  have htag : Untagged "page".toList := untagged_of_notMem (by decide)
  have hitems : ∀ item ∈ [Json.object [("kind".toList, .string "page".toList)]], ∀ k,
      Fields.lookup? (scopeOf item k) "kind".toList = some (.string "page".toList) := by
    intro item hitem k
    obtain rfl := List.mem_singleton.1 hitem
    rw [lookup?_scopeOf_single, if_neg (by decide)]
  have hinner : IsPlainName ['i'] := by decide
  obtain ⟨hdirect, hnested⟩ := expandLoops_comparison_iff hoperand (by decide) hinner
  refine ⟨?_, fun hright => ((hnested "page".toList (by decide) htag).1 hright).1 hliteral⟩
  rw [hdirect MemoryStore _ none ['c'] [.object [("kind".toList, .string "page".toList)]] (fun _ => "page".toList)
    "page".toList ['['] ['Y'] [']'] (by decide) hliteral htag (hplain _ (by decide) (by decide))
    (hplain _ (by decide) (by decide)) (hplain _ (by decide) (by decide)) hitems rfl]
  decide +kernel

/-- In a further loop the block is left out for the kind that it asks for, and shown for a kind that is code. -/
theorem expandLoops_nested_page :
    (comparisonSite "kind".toList "page".toList (.object []) 1).expandLoops none
        (overlapNest ['o'] ['i'] (comparisonBlock (hole ['o'] "kind".toList) "page".toList ['Y'])).text =
      some (.ok []) ∧
    (comparisonSite "kind".toList "true || 0".toList (.object []) 1).expandLoops none
        (overlapNest ['o'] ['i'] (comparisonBlock (hole ['o'] "kind".toList) "page".toList ['Y'])).text =
      some (.ok ['Y']) := by
  decide +kernel

end Site

end Pagewright
