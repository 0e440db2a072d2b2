import Pagewright.Proofs.Loop.Nested

/-!
# Loops whose names overlap

The item of a loop is put into the source of the loops in its body before they have rounds of their own. A
placeholder in the body of an inner loop is meant for the item of that loop. It gets there when the outer loop does
not read it as a placeholder of its own (`Loop.Reads`), and only then do the two loops together show the item of the
inner one (`Site.expandLoops_shadowed_iff`). The outer loop goes by the beginning of the name: it reads the
placeholder when the loops have the same name, when its name and a point stand in front of the name of the inner
one, and when its name is all of the path (`Loop.reads_reference_iff`).
-/

namespace Pagewright

namespace Loop

variable {scopeName outer inner field ending path t u : Text} {written : Option Text} {item : Json}
  {items innerItems : List Json} {n : Nat}

/-! ## Placeholders for fields -/

/-- The placeholder for a field of an item; behind the field stands nothing or a fallback. -/
def reference (scopeName field ending : Text) : Text :=
  '\x7b' :: ((scopeName ++ '.' :: (field ++ ending)) ++ ['\x7d'])

/-- The field is a path, the ending is read as it says, and no other placeholder begins in them. -/
structure IsReference (field ending : Text) (written : Option Text) : Prop where
  ne_nil : field ≠ []
  path : ∀ c ∈ field, Placeholder.isPathChar c
  tail : Placeholder.tail? (ending ++ ['\x7d']) = some (written, [])
  single : '\x7b' ∉ field ++ ending

/-- What the placeholder shows of a scope: the field, else the fallback, else itself. -/
def shown (scope : Fields) (scopeName field ending : Text) (written : Option Text) : Text :=
  Placeholder.filled ((Fields.lookup? scope field).map Json.display) written (reference scopeName field ending)

/-- A loop of this name reads a placeholder at the start of the text: for one of the fields of its item, or for the
item as a whole. -/
def Reads (scopeName t : Text) : Prop :=
  (Placeholder.parse? (Placeholder.scopeOpening scopeName) Placeholder.isPathChar t).isSome ∨
    ((Text.after? ('\x7b' :: scopeName) t).bind Placeholder.tail?).isSome

instance (scopeName t : Text) : Decidable (Reads scopeName t) := inferInstanceAs (Decidable (_ ∨ _))

theorem IsReference.brace_notMem (h : IsReference field ending written) (hname : '\x7b' ∉ scopeName) :
    '\x7b' ∉ (scopeName ++ '.' :: (field ++ ending)) ++ ['\x7d'] := by
  have hsingle := h.single
  rw [List.mem_append, not_or] at hsingle
  simp [hname, hsingle]

theorem closed_reference (h : IsReference field ending written) (hname : '\x7b' ∉ scopeName) :
    Placeholder.Closed (reference scopeName field ending) :=
  Placeholder.closed_hole fun hm => h.brace_notMem hname (List.mem_append_left _ hm)

/-- Behind a name and a point there is the rest of the placeholder. -/
theorem after?_reference (scopeName field ending : Text) :
    Text.after? ('\x7b' :: scopeName) (reference scopeName field ending) =
      some ('.' :: (field ++ (ending ++ ['\x7d']))) := by
  rw [Text.after?_eq_some_iff]
  simp [reference]

/-! ## Reading placeholders of another loop -/

/-- A text behind whose first brace there is no other one is put together again from what is read at the brace. -/
private theorem replaceScoped_cons (hu : '\x7b' ∉ u) (scope : Fields)
    (hnone : Placeholder.parse? (Placeholder.scopeOpening scopeName) Placeholder.isPathChar ('\x7b' :: u) = none) :
    replaceScoped scopeName scope ('\x7b' :: u) = '\x7b' :: u := by
  refine (Text.substitute_cons_none ?_).trans (congrArg _ (replaceScoped_of_notMem hu scopeName scope))
  rw [hnone]

private theorem nameItem_cons (hu : '\x7b' ∉ u) (item : Json)
    (hnone : (Text.after? ('\x7b' :: scopeName) ('\x7b' :: u)).bind Placeholder.tail? = none) :
    nameItem item scopeName ('\x7b' :: u) = '\x7b' :: u := by
  unfold nameItem
  split
  · rfl
  · refine (Text.substitute_cons_none ?_).trans (congrArg _ (replaceNamed_of_notMem hu))
    cases hafter : Text.after? ('\x7b' :: scopeName) ('\x7b' :: u) with
    | none => rfl
    | some r =>
      rw [hafter, Option.bind_some] at hnone
      simp only [hnone]
      rfl

/-- What a loop does not read it leaves alone, whatever its item is. -/
theorem fillItem_of_not_reads (hu : '\x7b' ∉ u) (h : ¬ Reads scopeName ('\x7b' :: u)) (item : Json) (n : Nat) :
    nameItem item scopeName ('\x7b' :: u) = '\x7b' :: u ∧ fillItem item n scopeName ('\x7b' :: u) = '\x7b' :: u := by
  rw [Reads, not_or, Option.not_isSome_iff_eq_none, Option.not_isSome_iff_eq_none] at h
  have hnamed := nameItem_cons hu item h.2
  refine ⟨hnamed, ?_⟩
  rw [fillItem, hnamed]
  exact replaceScoped_cons hu _ h.1

theorem surrounds_reference (h : IsReference field ending written) (hmarkup : IsMarkup (reference inner field ending))
    (hinner : '\x7b' ∉ inner) (hreads : ¬ Reads outer (reference inner field ending)) (items : List Json) :
    Surrounds items outer (reference inner field ending) where
  markup := hmarkup
  named := fun item _ => by
    have hsame := (fillItem_of_not_reads (h.brace_notMem hinner) hreads item 0).1
    exact hsame.symm ▸ hmarkup.closed
  filled := fun item _ n => by
    have hsame := (fillItem_of_not_reads (h.brace_notMem hinner) hreads item n).2
    exact hsame.symm ▸ hmarkup

/-- The item of a loop as a whole is not read in a placeholder for one of its fields. -/
theorem nameItem_reference (h : IsReference field ending written) (hname : '\x7b' ∉ scopeName) (item : Json) :
    nameItem item scopeName (reference scopeName field ending) = reference scopeName field ending := by
  refine nameItem_cons (h.brace_notMem hname) item ?_
  have hpoint : Placeholder.tail? ('.' :: (field ++ (ending ++ ['\x7d']))) = none :=
    Placeholder.tail?_cons_of_ne (by decide) (by decide)
  exact (congrArg (Option.bind · Placeholder.tail?) (after?_reference scopeName field ending)).trans hpoint

theorem parse?_reference (h : IsReference field ending written) (scopeName : Text) :
    Placeholder.parse? (Placeholder.scopeOpening scopeName) Placeholder.isPathChar (reference scopeName field ending) =
      some (field, written, []) := by
  have htext : reference scopeName field ending =
      Placeholder.scopeOpening scopeName ++ (field ++ (ending ++ ['\x7d'])) := by
    simp [reference, Placeholder.scopeOpening]
  rw [htext]
  exact Placeholder.parse?_path h.ne_nil h.path h.tail

theorem replaceScoped_of_parse? (scope : Fields)
    (h : Placeholder.parse? (Placeholder.scopeOpening scopeName) Placeholder.isPathChar t = some (path, written, [])) :
    replaceScoped scopeName scope t =
      Placeholder.filled ((Fields.lookup? scope path).map Json.display) written t := by
  have hconsumed : Text.consumed t [] = t := by
    simp [Text.consumed]
  have hnil : Placeholder.replace (Placeholder.scopeOpening scopeName) Placeholder.isPathChar
      (fun path => (Fields.lookup? scope path).map Json.display) [] = [] :=
    Text.substitute_of_free (.nil _)
  rw [replaceScoped, Placeholder.replace_of_parse? h, hconsumed, hnil, List.append_nil]

/-- The loop that a placeholder is meant for shows the field of its item. -/
theorem fillItem_reference (h : IsReference field ending written) (hname : '\x7b' ∉ scopeName) (item : Json) (n : Nat) :
    fillItem item n scopeName (reference scopeName field ending) =
      shown (scopeOf item n) scopeName field ending written := by
  rw [fillItem, nameItem_reference h hname, replaceScoped_of_parse? _ (parse?_reference h scopeName)]
  rfl

/-! ## Items that give a loop away -/

/-- A field of an object with this field only, where the number of the round has a field of its own. -/
theorem lookup?_scopeOf_single (path : Text) (v : Json) (n : Nat) :
    Fields.lookup? (scopeOf (.object [(path, v)]) n) path =
      some (if "loop".toList = path then .ofNat (n + 1) else v) := by
  have hget : Fields.get? path (scopeOf (.object [(path, v)]) n) =
      some (if "loop".toList = path then .ofNat (n + 1) else v) := by
    rw [scopeOf, Fields.get?_insert, Fields.get?, if_pos rfl]
    split <;> rfl
  rw [Fields.lookup?, hget]

private theorem eq_nil_of_last {a rest : Text} (hu : '\x7d' ∉ u) (h : '\x7b' :: (u ++ ['\x7d']) = a ++ '\x7d' :: rest) :
    rest = [] := by
  have hcons : ('\x7b' :: u) ++ ['\x7d'] = a ++ '\x7d' :: rest := h
  have hfirst : '\x7d' ∉ '\x7b' :: u := by
    rw [List.mem_cons, not_or]
    exact ⟨by decide, hu⟩
  rcases List.append_eq_append_iff.1 hcons with ⟨w, -, hw⟩ | ⟨w, hw, hw'⟩
  · cases w with
    | nil =>
      rw [List.nil_append, List.cons.injEq] at hw
      exact hw.2.symm
    | cons d w => simp at hw
  · cases w with
    | nil =>
      rw [List.nil_append, List.cons.injEq] at hw'
      exact hw'.2
    | cons d w =>
      rw [List.cons_append, List.cons.injEq] at hw'
      exact absurd (by rw [hw, ← hw'.1]; simp) hfirst

/-- A placeholder ends at its only closing brace. -/
theorem IsReference.close_notMem (h : IsReference field ending written) (hname : '\x7d' ∉ scopeName) :
    '\x7d' ∉ scopeName ++ '.' :: (field ++ ending) := by
  have hfield : '\x7d' ∉ field := fun hm => absurd (h.path _ hm) (by decide)
  have hending : '\x7d' ∉ ending := by
    obtain ⟨v, hv, hclose, -⟩ := Placeholder.eq_append_of_tail? h.tail
    have heq : ending = v := List.append_cancel_right hv
    rwa [heq]
  simp [hname, hfield, hending]

/-- What a loop reads it also replaces: for some item by nothing, or by the number of the round. -/
theorem exists_item_of_reads (hclosed : Placeholder.Closed ('\x7b' :: (u ++ ['\x7d']))) (hu : '\x7d' ∉ u)
    (h : Reads scopeName ('\x7b' :: (u ++ ['\x7d']))) :
    ∃ item, Placeholder.Closed (nameItem item scopeName ('\x7b' :: (u ++ ['\x7d']))) ∧
      ((∀ n, fillItem item n scopeName ('\x7b' :: (u ++ ['\x7d'])) = []) ∨
        ∀ n, fillItem item n scopeName ('\x7b' :: (u ++ ['\x7d'])) = Text.ofNat (n + 1)) := by
  generalize ht : '\x7b' :: (u ++ ['\x7d']) = t at hclosed h ⊢
  rcases h with h | h
  · -- a field: an object with that field, where the field of the round is taken as it is
    obtain ⟨⟨path, written, rest⟩, hparse⟩ := Option.isSome_iff_exists.1 h
    obtain ⟨v, hv, -, -⟩ := Placeholder.eq_append_of_parse? hparse
    obtain rfl := eq_nil_of_last hu (ht.trans hv)
    have hfill : ∀ n, fillItem (.object [(path, .string [])]) n scopeName t =
        (if "loop".toList = path then Text.ofNat (n + 1) else []) := by
      intro n
      show replaceScoped scopeName _ t = _
      rw [replaceScoped_of_parse? _ hparse, lookup?_scopeOf_single]
      split <;> rfl
    refine ⟨.object [(path, .string [])], hclosed, ?_⟩
    by_cases hloop : "loop".toList = path
    · exact .inr fun n => by rw [hfill, if_pos hloop]
    · exact .inl fun n => by rw [hfill, if_neg hloop]
  · -- the item as a whole: an empty text
    obtain ⟨⟨written, rest⟩, hread⟩ := Option.isSome_iff_exists.1 h
    obtain ⟨r, hafter, htail⟩ := Option.bind_eq_some_iff.1 hread
    obtain ⟨v, hv, -, -⟩ := Placeholder.eq_append_of_tail? htail
    have htext := Text.after?_eq_some_iff.1 hafter
    have hlast : '\x7b' :: (u ++ ['\x7d']) = ('\x7b' :: scopeName ++ v) ++ '\x7d' :: rest := by
      rw [ht, htext, hv, List.append_assoc]
    obtain rfl := eq_nil_of_last hu hlast
    have hnamed : nameItem (.string []) scopeName t = [] := by
      show replaceNamed scopeName [] t = []
      rw [replaceNamed_of_tail? hafter htail, replaceNamed_of_notMem (by simp)]
      rfl
    refine ⟨.string [], by rw [hnamed]; trivial, .inl fun n => ?_⟩
    rw [fillItem, hnamed]
    exact Text.substitute_of_free (.nil _)

/-- A loop that reads a placeholder of another one goes by the beginning of the path. -/
theorem reads_reference_iff (h : IsReference field ending written) (houter : ∀ c ∈ outer, Placeholder.isPathChar c)
    (hinner : ∀ c ∈ inner, Placeholder.isPathChar c) :
    Reads outer (reference inner field ending) ↔
      inner ++ '.' :: field = outer ∨ ∃ path, path ≠ [] ∧ inner ++ '.' :: field = outer ++ '.' :: path := by
  have htext : reference inner field ending = '\x7b' :: ((inner ++ '.' :: field) ++ (ending ++ ['\x7d'])) := by
    simp [reference]
  have hpoint : Placeholder.isPathChar '.' := by decide
  have hchars : ∀ c ∈ inner ++ '.' :: field, Placeholder.isPathChar c := by
    intro c hc
    rcases List.mem_append.1 hc with hc | hc
    · exact hinner c hc
    · rcases List.mem_cons.1 hc with rfl | hc
      · exact hpoint
      · exact h.path c hc
  obtain ⟨d, r, hend, hd⟩ := Placeholder.head_of_tail? h.tail
  -- what follows the path begins with a character that no name has
  have hnames : ∀ {p z : Text}, (∀ c ∈ p, Placeholder.isPathChar c) →
      (inner ++ '.' :: field) ++ (ending ++ ['\x7d']) = p ++ z →
        ∃ w, inner ++ '.' :: field = p ++ w ∧ z = w ++ (ending ++ ['\x7d']) := by
    intro p z hp heq
    rcases List.append_eq_append_iff.1 heq with ⟨w, hw, hz⟩ | ⟨w, hw, hz⟩
    · cases w with
      | nil =>
        rw [List.append_nil] at hw
        exact ⟨[], by rw [hw, List.append_nil], hz.symm⟩
      | cons c w =>
        rw [hend, List.cons_append, List.cons.injEq] at hz
        have hc := hp c (by rw [hw]; simp)
        rw [← hz.1, hd] at hc
        cases hc
    · exact ⟨w, hw, hz⟩
  rw [Reads, htext]
  constructor
  · rintro (hread | hread)
    · obtain ⟨⟨path, w, rest⟩, hparse⟩ := Option.isSome_iff_exists.1 hread
      obtain ⟨z, hafter, hbehind⟩ := Option.bind_eq_some_iff.1 hparse
      have heq := Text.after?_eq_some_iff.1 hafter
      have hopening : (inner ++ '.' :: field) ++ (ending ++ ['\x7d']) = (outer ++ ['.']) ++ z := by
        simpa [Placeholder.scopeOpening] using heq
      obtain ⟨p, hp, hz⟩ := hnames (p := outer ++ ['.']) (by
        intro c hc
        rcases List.mem_append.1 hc with hc | hc
        · exact houter c hc
        · exact List.mem_singleton.1 hc ▸ hpoint) hopening
      refine .inr ⟨p, ?_, by simpa using hp⟩
      rintro rfl
      have hempty : z.takeWhile Placeholder.isPathChar = [] := by
        rw [hz, List.nil_append, hend, List.takeWhile_cons_of_neg (by simp [hd])]
      simp [hempty] at hbehind
    · obtain ⟨⟨w, rest⟩, hread⟩ := Option.isSome_iff_exists.1 hread
      obtain ⟨z, hafter, htail⟩ := Option.bind_eq_some_iff.1 hread
      have heq := Text.after?_eq_some_iff.1 hafter
      have hopening : (inner ++ '.' :: field) ++ (ending ++ ['\x7d']) = outer ++ z := by
        simpa using heq
      obtain ⟨p, hp, hz⟩ := hnames houter hopening
      cases p with
      | nil => exact .inl (by simpa using hp)
      | cons c p =>
        -- the name would have to end in front of a character of the path
        obtain ⟨c', s, hcs, hc'⟩ := Placeholder.head_of_tail? htail
        rw [hz, List.cons_append, List.cons.injEq] at hcs
        have hc := hchars c (by rw [hp]; simp)
        rw [hcs.1, hc'] at hc
        cases hc
  · rintro (heq | ⟨path, hne, heq⟩)
    · refine .inr ?_
      have hafter : Text.after? ('\x7b' :: outer) ('\x7b' :: (outer ++ (ending ++ ['\x7d']))) =
          some (ending ++ ['\x7d']) := Text.after?_append_self ('\x7b' :: outer) _
      rw [heq, hafter, Option.bind_some, h.tail]
      rfl
    · refine .inl ?_
      have hpath : ∀ c ∈ path, Placeholder.isPathChar c := fun c hc => hchars c (by rw [heq]; simp [hc])
      have hparse : Placeholder.parse? (Placeholder.scopeOpening outer) Placeholder.isPathChar
          (Placeholder.scopeOpening outer ++ (path ++ (ending ++ ['\x7d']))) = some (path, written, []) :=
        Placeholder.parse?_path hne hpath h.tail
      have hsame : '\x7b' :: ((inner ++ '.' :: field) ++ (ending ++ ['\x7d'])) =
          Placeholder.scopeOpening outer ++ (path ++ (ending ++ ['\x7d'])) := by
        rw [heq]
        simp [Placeholder.scopeOpening]
      rw [hsame, hparse]
      rfl

/-! ## Bodies with a placeholder -/

/-- The body of the inner loop is the text with markup around it, which stays markup when any items of the two loops
have been put in. -/
structure Nest.Embeds (nest : Nest) (outerItems items : List Json) (before t after : Text) : Prop where
  body : nest.body = before ++ (t ++ after)
  surrounds_before : Surrounds outerItems nest.outer before
  surrounds_after : Surrounds outerItems nest.outer after
  named : ∀ item ∈ outerItems, ∀ k, ∀ innerItem ∈ items,
    Placeholder.Closed (nameItem innerItem nest.inner (fillItem item k nest.outer before))

/-- What the items of the two loops make of the body together, when the inner one gets its placeholder. -/
def Nest.shadowed (nest : Nest) (before field ending after : Text) (written : Option Text) (item : Json) (k : Nat)
    (innerItem : Json) (l : Nat) : Text :=
  fillItem innerItem l nest.inner (fillItem item k nest.outer before) ++
    (shown (scopeOf innerItem l) nest.inner field ending written ++
      fillItem innerItem l nest.inner (fillItem item k nest.outer after))

variable {nest : Nest} {before after : Text}

theorem Nest.Embeds.isInnerBody (h : IsReference field ending written) (hinner : IsPlainName nest.inner)
    (houter : IsPlainName nest.outer) (hmarkup : IsMarkup (reference nest.inner field ending))
    (hembeds : nest.Embeds items innerItems before (reference nest.inner field ending) after)
    (hreads : ¬ Reads nest.outer (reference nest.inner field ending)) : IsInnerBody items nest.outer nest.body := by
  have hclose : '\x7d' ∉ nest.outer := houter.notMem (by decide)
  have hreference := surrounds_reference h hmarkup (hinner.notMem (by decide)) hreads items
  rw [hembeds.body]
  exact (hembeds.surrounds_before.append hclose (hreference.append hclose hembeds.surrounds_after)).isInnerBody

end Loop

namespace Site

open Loop

variable {outer inner field ending before after t u : Text} {written : Option Text} {item innerItem : Json}
  {items innerItems : List Json} {nest : Nest}

/-- The rounds of the inner loop show its items, when the outer one leaves the placeholder alone. -/
theorem roundsOf_embeds (h : IsReference field ending written) (hinner : IsPlainName nest.inner)
    (houter : IsPlainName nest.outer) (hmarkup : IsMarkup (reference nest.inner field ending))
    (hembeds : nest.Embeds items innerItems before (reference nest.inner field ending) after)
    (hreads : ¬ Reads nest.outer (reference nest.inner field ending)) (hitem : item ∈ items) (k : Nat) :
    roundsOf (fillItem item k nest.outer nest.body) innerItems nest.inner =
      innerItems.mapIdx fun l innerItem => nest.shadowed before field ending after written item k innerItem l := by
  have hbrace : '\x7b' ∉ nest.inner := hinner.notMem (by decide)
  have hclose : '\x7d' ∉ nest.outer := houter.notMem (by decide)
  have hclose' : '\x7d' ∉ nest.inner := hinner.notMem (by decide)
  have hreference := surrounds_reference h hmarkup hbrace hreads items
  have hsame := (fillItem_of_not_reads (h.brace_notMem hbrace) hreads item k).2
  have hfilled : fillItem item k nest.outer nest.body =
      fillItem item k nest.outer before ++ (reference nest.inner field ending ++ fillItem item k nest.outer after) := by
    rw [hembeds.body, fillItem_append hclose hembeds.surrounds_before.markup.closed (hembeds.surrounds_before.named _ hitem),
      fillItem_append hclose hmarkup.closed (hreference.named _ hitem)]
    exact congrArg (fun t => _ ++ (t ++ _)) hsame
  have hbody : IsMarkup (fillItem item k nest.outer nest.body) := by
    rw [hfilled]
    exact (hembeds.surrounds_before.filled _ hitem k).append (hmarkup.append (hembeds.surrounds_after.filled _ hitem k))
  refine List.mapIdx_eq_mapIdx_iff.2 fun l hlt => ?_
  have hnamed := hembeds.named _ hitem k _ (List.getElem_mem hlt)
  have hnamed' : Placeholder.Closed (nameItem innerItems[l] nest.inner (reference nest.inner field ending)) := by
    rw [nameItem_reference h hbrace]
    exact hmarkup.closed
  rw [renderItem_of_skips hbody.loops hbody.blocks, hfilled,
    fillItem_append hclose' (hembeds.surrounds_before.filled _ hitem k).closed hnamed,
    fillItem_append hclose' hmarkup.closed hnamed', fillItem_reference h hbrace]
  rfl

/-! ## Two items that tell the loops apart -/

/-- A site with an item in one collection, and another item twice in a second one. -/
def overlapSite (item innerItem : Json) : Site MemoryStore where
  store := .empty
  settings := default
  collections := [(['c'], [item]), (['d'], [innerItem, innerItem])]

/-- Two loops over these collections, with nothing but a text in the body of the inner one. -/
def overlapNest (outer inner t : Text) : Nest := ⟨['c'], outer, [], ['d'], inner, t, []⟩

theorem frames_overlapNest (houter : IsPlainName outer) (hinner : IsPlainName inner) (t : Text) (items : List Json) :
    (overlapNest outer inner t).Frames items := by
  have hname : IsPlainName ['d'] := by decide
  have hempty : IsMarkup [] := isMarkup_of_notMem trivial (by simp)
  have hsurrounds : Surrounds items outer [] := surrounds_of_notMem hempty (by simp) items outer
  exact ⟨by simp [overlapNest], houter, hname, hinner, hsurrounds, by simp [overlapNest], hsurrounds⟩

/-- Between empty texts there is what comes out of the two rounds of the inner loop. -/
private theorem inSequence_two {α : Type} {f : α → Option (Except TemplateError Text)} {a b : α} {out out' : Text}
    (ha : f a = some (.ok out)) (hb : f b = some (.ok out')) : inSequence f [a, b] = some (.ok (out ++ out')) := by
  rw [inSequence_cons_of_ok ha, inSequence_cons_of_ok hb, inSequence_nil]
  simp [Except.map]

/-- When the item of the outer loop takes the text, the rounds of the inner one are what it puts in. -/
private theorem expandLoops_overlapNest (houter : IsPlainName outer) (hinner : IsPlainName inner) (hmarkup : IsMarkup t)
    (hnamed : Placeholder.Closed (nameItem item outer t)) (hfilled : ∀ n, '<' ∉ fillItem item n outer t)
    (hfirst : fillItem item 0 outer t = u) (hbrace : '\x7b' ∉ u) :
    (overlapSite item innerItem).expandLoops none (overlapNest outer inner t).text = some (.ok (u ++ u)) := by
  have hlt : '<' ∉ u := hfirst ▸ hfilled 0
  have hbody : IsInnerBody [item] outer t := by
    refine ⟨hmarkup.closed, hmarkup.loops.balanced, fun i hi => ?_, fun i hi n => ?_⟩
    · obtain rfl := List.mem_singleton.1 hi
      exact hnamed
    · obtain rfl := List.mem_singleton.1 hi
      exact (Element.skips_of_notMem (hfilled n)).balanced
  have hround : ∀ l, renderItem u innerItem l inner = u := by
    intro l
    rw [renderItem_of_skips (Element.skips_of_notMem hlt) (Element.skips_of_notMem hlt), fillItem_of_notMem hbrace]
  have hexpand : ∀ n, (overlapSite item innerItem).expandLoopsWithin none n u = some (.ok u) := fun n =>
    expandLoopsWithin_eq_self (Element.skips_of_notMem hlt) n
  have houterData : (overlapSite item innerItem).loopData? none ['c'] = .ok (some (.array [item])) := rfl
  have hinnerData : (overlapSite item innerItem).loopData? none ['d'] = .ok (some (.array [innerItem, innerItem])) := rfl
  rw [expandLoops_nest (frames_overlapNest houter hinner t [item]) hbody houterData hinnerData rfl]
  show inSequence id [(inSequence _ (roundsOf (fillItem item 0 outer t) [innerItem, innerItem] inner)).map
    (Except.map fun out => fillItem item 0 outer [] ++ (out ++ fillItem item 0 outer []))] = _
  have hnil : fillItem item 0 outer [] = [] := fillItem_of_notMem (by simp)
  have hrounds : roundsOf u [innerItem, innerItem] inner = [u, u] := by
    simp only [roundsOf, List.mapIdx_cons, List.mapIdx_nil, hround]
  rw [hfirst, hrounds, inSequence_two (hexpand _) (hexpand _), hnil]
  simp [inSequence, Except.map]

/-- An item with nothing but the field of a placeholder. -/
private def fieldItem (field : Text) : Json := .object [(field, .string ['0'])]

private theorem shown_fieldItem (inner field ending : Text) (written : Option Text) (l : ℕ) :
    shown (scopeOf (fieldItem field) l) inner field ending written =
      if "loop".toList = field then Text.ofNat (l + 1) else ['0'] := by
  rw [shown, fieldItem, lookup?_scopeOf_single]
  split <;> rfl

private theorem embeds_overlapNest (t : Text) (items innerItems : List Json) :
    (overlapNest outer inner t).Embeds items innerItems [] t [] := by
  have hempty : IsMarkup [] := isMarkup_of_notMem trivial (by simp)
  have hsurrounds : Surrounds items outer [] := surrounds_of_notMem hempty (by simp) items outer
  refine ⟨by simp [overlapNest], hsurrounds, hsurrounds, fun item _ k innerItem _ => ?_⟩
  rw [fillItem_of_notMem (by simp), nameItem_of_notMem (by simp)]
  trivial

/-- What should come out: what the placeholder shows in the two rounds of the inner loop. -/
private theorem inSequence_overlapNest (item : Json) (t : Text) (n : ℕ) :
    inSequence id ([item].mapIdx fun k item =>
      (inSequence ((overlapSite item (fieldItem field)).expandLoopsWithin none n)
        ([fieldItem field, fieldItem field].mapIdx fun l innerItem =>
          (overlapNest outer inner t).shadowed [] field ending [] written item k innerItem l)).map
            (Except.map fun out => fillItem item k outer [] ++ (out ++ fillItem item k outer []))) =
      some (.ok (if "loop".toList = field then "12".toList else "00".toList)) := by
  have hnil : ∀ (item : Json) (k : ℕ) (name : Text), fillItem item k name [] = [] := fun item k name =>
    fillItem_of_notMem (by simp)
  have hshadowed : ∀ l, (overlapNest outer inner t).shadowed [] field ending [] written item 0 (fieldItem field) l =
      if "loop".toList = field then Text.ofNat (l + 1) else ['0'] := by
    intro l
    simp only [Nest.shadowed, hnil, List.nil_append, List.append_nil]
    exact shown_fieldItem inner field ending written l
  have hlt : ∀ l, '<' ∉ if "loop".toList = field then Text.ofNat (l + 1) else ['0'] := by
    intro l hm
    split at hm
    · exact absurd (Binary64.isDigit_of_mem_ofNat hm) (by decide)
    · exact absurd hm (by decide)
  have hexpand : ∀ l, (overlapSite item (fieldItem field)).expandLoopsWithin none n
      ((overlapNest outer inner t).shadowed [] field ending [] written item 0 (fieldItem field) l) =
        some (.ok (if "loop".toList = field then Text.ofNat (l + 1) else ['0'])) := by
    intro l
    rw [hshadowed]
    exact expandLoopsWithin_eq_self (Element.skips_of_notMem (hlt l)) n
  simp only [List.mapIdx_cons, List.mapIdx_nil, Nat.zero_add, inSequence_two (hexpand 0) (hexpand 1), hnil]
  by_cases hloop : "loop".toList = field
  · simp only [if_pos hloop]
    rfl
  · simp only [if_neg hloop]
    rfl

/-- Two loops inside of each other show the items of the inner one in a placeholder that is meant for them, whatever
the items of both are and whatever markup stands around, if and only if the outer one does not read the placeholder.
Of names without blanks it does when its name is the path, or the first part of the path. -/
theorem expandLoops_shadowed_iff (h : IsReference field ending written) (hmarkup : IsMarkup (reference inner field ending))
    (houter : IsPlainName outer) (hinner : IsPlainName inner) :
    ((∀ (σ : Type) [Storage σ] (site : Site σ) (frontmatter : Option Fields) (nest : Nest)
        (outerItems items : List Json) (before after : Text) (n : ℕ),
        nest.outer = outer → nest.inner = inner → nest.Frames outerItems →
        nest.Embeds outerItems items before (reference inner field ending) after →
        site.loopData? frontmatter nest.outerCollection = .ok (some (.array outerItems)) →
        site.loopData? frontmatter nest.innerCollection = .ok (some (.array items)) → site.stack = n + 1 →
        site.expandLoops frontmatter nest.text =
          inSequence id (outerItems.mapIdx fun k item =>
            (inSequence (site.expandLoopsWithin frontmatter n) (items.mapIdx fun l innerItem =>
              nest.shadowed before field ending after written item k innerItem l)).map
                (Except.map fun out => fillItem item k outer nest.pre ++ (out ++ fillItem item k outer nest.post)))) ↔
      ¬ Reads outer (reference inner field ending)) ∧
    ((∀ c ∈ outer, Placeholder.isPathChar c) → (∀ c ∈ inner, Placeholder.isPathChar c) →
      (Reads outer (reference inner field ending) ↔
        inner ++ '.' :: field = outer ∨ ∃ path, path ≠ [] ∧ inner ++ '.' :: field = outer ++ '.' :: path)) := by
  refine ⟨⟨fun hall hreads => ?_, fun hreads => ?_⟩, reads_reference_iff h⟩
  · have hclosed := closed_reference h (hinner.notMem (c := '\x7b') (by decide))
    have hbrace : '\x7d' ∉ inner ++ '.' :: (field ++ ending) := h.close_notMem (hinner.notMem (by decide))
    obtain ⟨item, hnamed, hfill⟩ := exists_item_of_reads hclosed hbrace hreads
    -- what is put in has no other characters than digits
    obtain ⟨u, hfirst, hu, hfilled⟩ : ∃ u, fillItem item 0 outer (reference inner field ending) = u ∧
        (u = [] ∨ u = ['1']) ∧ ∀ n, '<' ∉ fillItem item n outer (reference inner field ending) := by
      rcases hfill with hfill | hfill
      · exact ⟨[], hfill 0, .inl rfl, fun n hm => by rw [reference, hfill n] at hm; cases hm⟩
      · refine ⟨['1'], hfill 0, .inr rfl, fun n hm => ?_⟩
        rw [reference, hfill n] at hm
        exact absurd (Binary64.isDigit_of_mem_ofNat hm) (by decide)
    have hactual : (overlapSite item (fieldItem field)).expandLoops none
        (overlapNest outer inner (reference inner field ending)).text = some (.ok (u ++ u)) :=
      expandLoops_overlapNest houter hinner hmarkup hnamed hfilled hfirst (by rcases hu with rfl | rfl <;> decide)
    obtain ⟨n, hn⟩ : ∃ n, (overlapSite item (fieldItem field)).stack = n + 1 := ⟨9999, rfl⟩
    have hshown := hall MemoryStore (overlapSite item (fieldItem field)) none
      (overlapNest outer inner (reference inner field ending)) [item] [fieldItem field, fieldItem field] [] [] n rfl rfl
      (frames_overlapNest houter hinner _ _) (embeds_overlapNest _ _ _) rfl rfl hn
    have hexpected := hshown.trans (inSequence_overlapNest item (reference inner field ending) n)
    have hsame := Except.ok.inj (Option.some.inj (hactual.symm.trans hexpected))
    rcases hu with rfl | rfl
    · split at hsame <;> exact absurd hsame (by decide)
    · split at hsame <;> exact absurd hsame (by decide)
  · rintro σ _ site frontmatter nest outerItems items before after n rfl rfl hframes hembeds houterData hinnerData hstack
    rw [expandLoops_nest hframes (hembeds.isInnerBody h hinner houter hmarkup hreads) houterData hinnerData hstack]
    refine congrArg (inSequence id) (List.mapIdx_eq_mapIdx_iff.2 fun k hk => ?_)
    rw [roundsOf_embeds h hinner houter hmarkup hembeds hreads (List.getElem_mem hk)]

/-! ### Menus -/

/-- A loop over menus in a loop over the entries of one of them, with text around the placeholder and around the inner
loop. -/
def menuNest : Nest where
  outerCollection := ['c']
  outer := "menus.main".toList
  pre := "[".toList
  innerCollection := ['d']
  inner := "menus".toList
  body := "- ".toList ++ (reference "menus".toList "title".toList " or 'none'".toList ++ ";".toList)
  post := "]".toList

/-- An entry with a title. -/
def entry (title : String) : Json := .object [("title".toList, .string title.toList)]

/-- A name that goes on behind the name of the inner loop does not take its placeholders. -/
theorem expandLoops_shadowed_menus :
    (overlapSite (entry "Main") (entry "About")).expandLoops none menuNest.text =
      some (.ok "[- About;- About;]".toList) := by
  have href : IsReference "title".toList " or 'none'".toList (some "'none'".toList) :=
    ⟨by decide, by decide, by decide, by decide⟩
  have hmarkup : IsMarkup (reference "menus".toList "title".toList " or 'none'".toList) :=
    isMarkup_of_notMem (by decide) (by decide)
  have hplain : ∀ t : Text, '<' ∉ t → '\x7b' ∉ t → Surrounds [entry "Main"] "menus.main".toList t := fun t hlt hbrace =>
    surrounds_of_notMem (isMarkup_of_notMem (Placeholder.closed_of_notMem hbrace) hlt) hbrace _ _
  have hframes : menuNest.Frames [entry "Main"] :=
    ⟨by decide, by decide, by decide, by decide, hplain _ (by decide) (by decide), by decide,
      hplain _ (by decide) (by decide)⟩
  have hembeds : menuNest.Embeds [entry "Main"] [entry "About", entry "About"] "- ".toList
      (reference "menus".toList "title".toList " or 'none'".toList) ";".toList := by
    refine ⟨rfl, hplain _ (by decide) (by decide), hplain _ (by decide) (by decide), fun item _ k innerItem _ => ?_⟩
    rw [fillItem_of_notMem (by decide), nameItem_of_notMem (by decide)]
    decide
  have houter : IsPlainName "menus.main".toList := by decide
  have hinner : IsPlainName "menus".toList := by decide
  have hreads : ¬ Reads "menus.main".toList (reference "menus".toList "title".toList " or 'none'".toList) := by decide
  rw [(expandLoops_shadowed_iff href hmarkup houter hinner).1.2 hreads MemoryStore _ none menuNest [entry "Main"]
    [entry "About", entry "About"] _ _ 9999 rfl rfl hframes hembeds rfl rfl rfl]
  decide +kernel

/-- A loop in a loop of the same name: the placeholder shows the item of the outer one. -/
theorem expandLoops_same_name :
    (overlapSite (entry "outer") (entry "inner")).expandLoops none
        (overlapNest ['a'] ['a'] (reference ['a'] "title".toList [])).text =
      some (.ok "outerouter".toList) := by
  decide +kernel

end Site

end Pagewright
