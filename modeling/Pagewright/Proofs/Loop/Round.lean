import Pagewright.Proofs.Loop.Tree
import Pagewright.Proofs.Template.Placeholder

/-!
# A round of a loop over a tree

`Loop.renderItem` masks the loops in the body of a loop, resolves the conditions around them, puts the loops back
and fills in the placeholders. Each of these steps is followed here from a tree to what it makes of the text of the
tree: `Template.masked` is the text with markers, `Template.parts` is what is left of it by the conditions, and
`Template.rendered` is the text in the end (`Template.renderItem_fill`). When the loops do not come back as they
should, the end of a marker stays in the round, behind a text that is one of templates
(`Template.renderItem_fill_of_collides`).
-/

namespace Pagewright

open Loop

namespace Template

variable {collections : Collections} {around : List (Text × List Json)} {env : Env} {t : Template}
  {scopeName field name condition : Text} {items : List Json} {scope : Fields} {u r body : Text} {n : Nat}

/-! ## Masking -/

/-- How many loops are in a template that are in no other loop. -/
def loops : Template → Nat
  | nil => 0
  | text _ rest => rest.loops
  | slot _ _ rest => rest.loops
  | block _ body rest => body.loops + rest.loops
  | loop _ _ _ rest => rest.loops + 1

/-- The text of a template with markers for its loops. -/
def masked (env : Env) (n : Nat) : Template → Text
  | nil => []
  | text t rest => t ++ rest.masked env n
  | slot scopeName field rest => env.shows scopeName field ++ rest.masked env n
  | block condition body rest =>
    Element.written (blockOpening condition) (body.masked env n) blockClosing ++ rest.masked env (n + body.loops)
  | loop _ _ _ rest => marker n ++ rest.masked env (n + 1)

/-- What the conditions for an item leave of a template. -/
def parts (scopeName : Text) (scope : Fields) (env : Env) : Template → List BodyPart
  | nil => []
  | text t rest => .words t :: rest.parts scopeName scope env
  | slot name field rest => .words (env.shows name field) :: rest.parts scopeName scope env
  | block condition body rest =>
    (if Env.holds [(scopeName, scope)] condition then body.parts scopeName scope env
      else BodyPart.dropped (body.parts scopeName scope env)) ++ rest.parts scopeName scope env
  | loop collection name body rest =>
    .loop true (written collection name (body.fill env)) :: rest.parts scopeName scope env

theorem length_loops_parts (scopeName : Text) (scope : Fields) (env : Env) (t : Template) :
    (BodyPart.loops (t.parts scopeName scope env)).length = t.loops := by
  induction t with
  | nil => rfl
  | text t rest ih => exact ih
  | slot name field rest ih => exact ih
  | block condition body rest ihb ihr =>
    rw [parts, BodyPart.loops_append, List.length_append, ihr, loops]
    split
    · rw [ihb]
    · rw [BodyPart.loops_dropped, ihb]
  | loop collection name body rest _ ih => exact congrArg (· + 1) ih

theorem mask_pieces_of_skips (h : Element.Skips tag u) (n : Nat) (r : Text) :
    mask n (pieces tag (u ++ r)) = u ++ mask n (pieces tag r) := by
  obtain ⟨t, ps, hr, hu⟩ := pieces_append_of_skips h r
  rw [hr, hu, mask, mask, List.append_assoc]

theorem elementTexts_pieces_of_skips (h : Element.Skips tag u) (r : Text) :
    elementTexts (pieces tag (u ++ r)) = elementTexts (pieces tag r) := by
  obtain ⟨t, ps, hr, hu⟩ := pieces_append_of_skips h r
  rw [hr, hu, elementTexts, elementTexts]

/-- A loop in front of a text is one piece. -/
theorem pieces_loop {collection : Text} (hc : '"' ∉ collection) (ha : '"' ∉ scopeName)
    (hb : Element.Balanced tag body) (r : Text) :
    pieces tag (written collection scopeName body ++ r) =
      .text [] :: .element (writtenElement collection scopeName body) :: pieces tag r := by
  rw [written_eq]
  exact pieces_element (opens_loop hc ha) hb closes_loop r

/-- The loops of a template are masked, and the text around them is not. -/
theorem mask_pieces_fill (h : t.Proper collections around) (hw : env.Within around) (n : Nat) (r : Text) :
    mask n (pieces tag (t.fill env ++ r)) = t.masked env n ++ mask (n + t.loops) (pieces tag r) := by
  induction t generalizing around n r with
  | nil => rfl
  | text t rest ih =>
    rw [fill, masked, loops, List.append_assoc, List.append_assoc,
      mask_pieces_of_skips (Element.skips_of_notMem h.1.1), ih h.2 hw]
  | slot name field rest ih =>
    have hslot := notMem_shows h.1 h.2.1 hw h.2.2.1 (c := '<') (by simp)
    rw [fill, masked, loops, List.append_assoc, List.append_assoc,
      mask_pieces_of_skips (Element.skips_of_notMem hslot), ih h.2.2.2 hw]
  | block condition body rest ihb ihr =>
    have hnext : n + (body.loops + rest.loops) = n + body.loops + rest.loops := by omega
    rw [fill, masked, loops, hnext]
    simp only [Element.written, List.append_assoc]
    rw [mask_pieces_of_skips (skips_blockOpening h.1), ihb h.2.1 hw, mask_pieces_of_skips skips_blockClosing,
      ihr h.2.2 hw]
  | loop collection name body rest ihb ihr =>
    obtain ⟨hc, ha, -, ⟨items, -, -, hbody⟩, hrest⟩ := h
    have hnext : n + (rest.loops + 1) = n + 1 + rest.loops := by omega
    rw [fill, masked, loops, hnext, List.append_assoc,
      pieces_loop (hc.notMem (by decide)) (ha.notMem (by decide)) (balanced_fill hbody hw.mono), mask, List.nil_append,
      mask, ihr hrest hw, List.append_assoc]

theorem elementTexts_pieces_fill (h : t.Proper collections around) (hw : env.Within around)
    (scopeName : Text) (scope : Fields) (r : Text) :
    elementTexts (pieces tag (t.fill env ++ r)) =
      BodyPart.loops (t.parts scopeName scope env) ++ elementTexts (pieces tag r) := by
  induction t generalizing around r with
  | nil => rfl
  | text t rest ih =>
    rw [fill, List.append_assoc, elementTexts_pieces_of_skips (Element.skips_of_notMem h.1.1), ih h.2 hw]
    rfl
  | slot name field rest ih =>
    have hslot := notMem_shows h.1 h.2.1 hw h.2.2.1 (c := '<') (by simp)
    rw [fill, List.append_assoc, elementTexts_pieces_of_skips (Element.skips_of_notMem hslot), ih h.2.2.2 hw]
    rfl
  | block condition body rest ihb ihr =>
    have hloops : BodyPart.loops (parts scopeName scope env (block condition body rest)) =
        BodyPart.loops (body.parts scopeName scope env) ++ BodyPart.loops (rest.parts scopeName scope env) := by
      rw [parts, BodyPart.loops_append]
      split
      · rfl
      · rw [BodyPart.loops_dropped]
    rw [fill, hloops]
    simp only [Element.written, List.append_assoc]
    rw [elementTexts_pieces_of_skips (skips_blockOpening h.1), ihb h.2.1 hw,
      elementTexts_pieces_of_skips skips_blockClosing, ihr h.2.2 hw]
  | loop collection name body rest ihb ihr =>
    obtain ⟨hc, ha, -, ⟨items, -, -, hbody⟩, hrest⟩ := h
    have htext : (writtenElement collection name (body.fill env)).text = written collection name (body.fill env) := by
      simp [writtenElement, Element.text, written]
    rw [fill, List.append_assoc,
      pieces_loop (hc.notMem (by decide)) (ha.notMem (by decide)) (balanced_fill hbody hw.mono), elementTexts,
      elementTexts, ihr hrest hw, htext]
    rfl

/-! ## Conditions -/

/-- A condition without placeholders is judged as it is written. -/
theorem holds_eq (h : IsCondition condition) (scopeName : Text) (scope : Fields) (env : Env) :
    Condition.holds condition scope scopeName = Env.holds ((scopeName, scope) :: env) condition := by
  rw [Condition.holds, Condition.inlinePlaceholders_of_notMem h.2.1, Env.holds]
  cases Condition.evaluate condition scope scopeName with
  | ok b => cases b <;> rfl
  | error err => rfl

/-- Resolving blocks goes piece by piece. -/
theorem resolveBlocks_eq (scope : Fields) (scopeName t : Text) :
    Condition.resolveBlocks scope scopeName t = (pieces "If".toList t).flatMap fun p =>
      match p with
      | .text t => t
      | .element e =>
        match e.attribute? "condition".toList with
        | none => e.text
        | some c =>
          if Condition.holds c scope scopeName then Condition.resolveBlocks scope scopeName e.body else [] := by
  rw [Condition.resolveBlocks]
  conv => rhs; rw [← List.attach_map_subtype_val (pieces "If".toList t), List.flatMap_map]
  refine List.flatMap_congr fun ⟨p, _⟩ _ => ?_
  cases p <;> rfl

theorem resolveBlocks_nil (scope : Fields) (scopeName : Text) : Condition.resolveBlocks scope scopeName [] = [] := by
  rw [resolveBlocks_eq, pieces_nil]
  rfl

theorem resolveBlocks_of_skipsBefore (h : Element.SkipsBefore "If".toList u r) (scope : Fields) (scopeName : Text) :
    Condition.resolveBlocks scope scopeName (u ++ r) = u ++ Condition.resolveBlocks scope scopeName r := by
  obtain ⟨t, ps, hr, hu⟩ := pieces_append_of_skipsBefore h
  rw [resolveBlocks_eq, resolveBlocks_eq scope scopeName r, hr, hu, List.flatMap_cons, List.flatMap_cons,
    List.append_assoc]

theorem resolveBlocks_of_skips (h : Element.Skips "If".toList u) (scope : Fields) (scopeName r : Text) :
    Condition.resolveBlocks scope scopeName (u ++ r) = u ++ Condition.resolveBlocks scope scopeName r :=
  resolveBlocks_of_skipsBefore (h.before r) scope scopeName

/-- The opening tag of a block whose end is found: the block stands for its body or for nothing. -/
theorem resolveBlocks_of_closing? {closing after : Text} (h : '"' ∉ condition)
    (hc : Element.closing? "If".toList 0 r = some (body, closing, after)) (scope : Fields) (scopeName : Text) :
    Condition.resolveBlocks scope scopeName ('<' :: blockOpening condition ++ r) =
      (if Condition.holds condition scope scopeName then Condition.resolveBlocks scope scopeName body else []) ++
        Condition.resolveBlocks scope scopeName after := by
  rw [resolveBlocks_eq, pieces_of_find? (Element.find?_of_opens (opens_block h) hc), List.flatMap_cons,
    List.flatMap_cons, ← resolveBlocks_eq]
  rfl

/-- A block stands for its body or for nothing. -/
theorem resolveBlocks_block (h : '"' ∉ condition) (hb : Element.Balanced "If".toList body) (scope : Fields)
    (scopeName r : Text) :
    Condition.resolveBlocks scope scopeName
        (Element.written (blockOpening condition) body blockClosing ++ r) =
      (if Condition.holds condition scope scopeName then Condition.resolveBlocks scope scopeName body else []) ++
        Condition.resolveBlocks scope scopeName r := by
  have htext : Element.written (blockOpening condition) body blockClosing ++ r =
      '<' :: blockOpening condition ++ (body ++ ('<' :: blockClosing ++ r)) := by
    simp [Element.written]
  rw [htext, resolveBlocks_of_closing? h (hb.closing?_closes closes_block r)]

theorem skips_marker (n : Nat) : Element.Skips "If".toList (marker n) := by
  refine Element.skips_of_notMem fun h => ?_
  rw [marker_eq] at h
  simp [lt_notMem_label n] at h

/-- The search for blocks and their ends sees whole blocks in a masked text. -/
theorem balanced_masked (h : t.Proper collections around) (hw : env.Within around) (n : Nat) :
    Element.Balanced "If".toList (t.masked env n) := by
  induction t generalizing around n with
  | nil => exact .nil _
  | text t rest ih => exact (Element.skips_of_notMem h.1.1).balanced.append (ih h.2 hw n)
  | slot name field rest ih =>
    have hslot := notMem_shows h.1 h.2.1 hw h.2.2.1 (c := '<') (by simp)
    exact (Element.skips_of_notMem hslot).balanced.append (ih h.2.2.2 hw n)
  | block condition body rest ihb ihr =>
    exact ((ihb h.2.1 hw n).written (opens_block h.1.1) closes_block).append (ihr h.2.2 hw _)
  | loop collection name body rest _ ihr =>
    obtain ⟨-, -, -, -, hrest⟩ := h
    exact (skips_marker n).balanced.append (ihr hrest hw _)

/-- The conditions around the loops of a masked text are resolved. -/
theorem resolveBlocks_masked (h : t.Proper collections around) (hw : env.Within around) (scopeName : Text)
    (scope : Fields) (n : Nat) (r : Text) :
    Condition.resolveBlocks scope scopeName (t.masked env n ++ r) =
      BodyPart.masked n (t.parts scopeName scope env) ++ Condition.resolveBlocks scope scopeName r := by
  induction t generalizing around n r with
  | nil => rfl
  | text t rest ih =>
    rw [masked, parts, BodyPart.masked, List.append_assoc, List.append_assoc,
      resolveBlocks_of_skips (Element.skips_of_notMem h.1.1), ih h.2 hw]
  | slot name field rest ih =>
    have hslot := notMem_shows h.1 h.2.1 hw h.2.2.1 (c := '<') (by simp)
    rw [masked, parts, BodyPart.masked, List.append_assoc, List.append_assoc,
      resolveBlocks_of_skips (Element.skips_of_notMem hslot), ih h.2.2.2 hw]
  | block condition body rest ihb ihr =>
    have hbody := ihb h.2.1 hw n []
    rw [List.append_nil, resolveBlocks_nil, List.append_nil] at hbody
    rw [masked, List.append_assoc, resolveBlocks_block h.1.1 (balanced_masked h.2.1 hw n), hbody, ihr h.2.2 hw,
      holds_eq h.1 scopeName scope [], parts, BodyPart.masked_append]
    by_cases hholds : Env.holds [(scopeName, scope)] condition
    · rw [if_pos hholds, if_pos hholds, length_loops_parts, List.append_assoc]
    · rw [if_neg hholds, if_neg hholds, BodyPart.loops_dropped, length_loops_parts, BodyPart.masked_dropped,
        List.nil_append, List.nil_append]
  | loop collection name body rest _ ihr =>
    obtain ⟨-, -, -, -, hrest⟩ := h
    rw [masked, parts, BodyPart.masked, if_pos rfl, List.append_assoc, List.append_assoc,
      resolveBlocks_of_skips (skips_marker n), ihr hrest hw]

/-! ## Placeholders -/

/-- The text of a round: blocks are resolved for the innermost item, and loops stay. -/
def rendered (env : Env) : Template → Text
  | nil => []
  | text t rest => t ++ rest.rendered env
  | slot name field rest => env.shows name field ++ rest.rendered env
  | block condition body rest => (if env.holds condition then body.rendered env else []) ++ rest.rendered env
  | loop collection name body rest => written collection name (body.fill env) ++ rest.rendered env

/-- Names without a point that stand before one are the same. -/
private theorem eq_of_prefix_point {a b x y : Text} (ha : '.' ∉ a) (hb : '.' ∉ b)
    (h : a ++ '.' :: x = b ++ '.' :: y) : a = b := by
  induction a generalizing b with
  | nil =>
    cases b with
    | nil => rfl
    | cons d b =>
      simp only [List.nil_append, List.cons_append, List.cons.injEq] at h
      exact absurd (h.1 ▸ List.mem_cons_self) hb
  | cons c a ih =>
    cases b with
    | nil =>
      simp only [List.nil_append, List.cons_append, List.cons.injEq] at h
      exact absurd (h.1 ▸ List.mem_cons_self) ha
    | cons d b =>
      simp only [List.mem_cons, not_or] at ha hb
      simp only [List.cons_append, List.cons.injEq] at h
      rw [h.1, ih ha.2 hb.2 h.2]

/-- A placeholder of another scope is left alone. -/
theorem replaceScoped_hole_of_ne (hname : IsName name) (hfield : IsName field) (ha : IsName scopeName)
    (hne : name ≠ scopeName) (scope : Fields) (r : Text) :
    replaceScoped scopeName scope (Condition.hole name field ++ r) =
      Condition.hole name field ++ replaceScoped scopeName scope r := by
  have hbrace : '\x7b' ∉ name ++ ['.'] ++ field ++ ['\x7d'] := by
    simp [hname.notMem (c := '\x7b') (by decide), hfield.notMem (c := '\x7b') (by decide)]
  have htext : Condition.hole name field = '\x7b' :: (name ++ ['.'] ++ field ++ ['\x7d']) := rfl
  refine Text.substitute_append_left fun s hs hn => ?_
  have hnone : Placeholder.parse? (Placeholder.scopeOpening scopeName) Placeholder.isPathChar (s ++ r) = none := by
    rw [htext] at hs
    rcases List.suffix_cons_iff.1 hs with rfl | hs
    · have hafter : Text.after? (Placeholder.scopeOpening scopeName)
          ('\x7b' :: (name ++ ['.'] ++ field ++ ['\x7d']) ++ r) = none := by
        rw [Text.after?_eq_none_iff]
        rintro ⟨z, hz⟩
        have heq : scopeName ++ '.' :: z = name ++ '.' :: (field ++ ['\x7d'] ++ r) := by
          simpa [Placeholder.scopeOpening] using hz
        exact hne (eq_of_prefix_point (ha.notMem (by decide)) (hname.notMem (by decide)) heq).symm
      rw [Placeholder.parse?, hafter]
      rfl
    · exact Condition.parse?_of_suffix scopeName hbrace hs hn r
  simp only [hnone]

/-- A placeholder of the scope shows its field, and stays when there is none. -/
theorem replaceScoped_hole (scopeName : Text) (hfield : IsName field) (scope : Fields) (r : Text) :
    replaceScoped scopeName scope (Condition.hole scopeName field ++ r) =
      Env.shows [(scopeName, scope)] scopeName field ++ replaceScoped scopeName scope r := by
  have hparse : Placeholder.parse? (Placeholder.scopeOpening scopeName) Placeholder.isPathChar
      (Condition.hole scopeName field ++ r) = some (field, none, r) :=
    Condition.parse?_hole hfield.1 (fun c hc => (hfield.2 c hc).1) r
  have hlen : r.length ≤ (scopeName ++ ['.'] ++ field ++ ['\x7d'] ++ r).length := by
    rw [List.length_append]
    omega
  have hconsumed : Text.consumed (Condition.hole scopeName field ++ r) r = Condition.hole scopeName field := by
    rw [Text.consumed, List.length_append, Nat.add_sub_cancel, List.take_left]
  have hcons : Condition.hole scopeName field ++ r = '\x7b' :: (scopeName ++ ['.'] ++ field ++ ['\x7d'] ++ r) := rfl
  have hstep : replaceScoped scopeName scope (Condition.hole scopeName field ++ r) =
      ((Fields.lookup? scope field).map Json.display).getD (Condition.hole scopeName field) ++
        replaceScoped scopeName scope r := by
    unfold replaceScoped Placeholder.replace
    rw [hcons]
    refine Text.substitute_cons_some ?_ hlen
    rw [← hcons, hparse]
    dsimp only
    cases Fields.lookup? scope field with
    | none => exact congrArg (fun u => some (u, r)) hconsumed
    | some v => rfl
  have hscope : Env.scope? scopeName [(scopeName, scope)] = some scope := if_pos rfl
  rw [hstep, Env.shows, hscope, Option.bind_some]
  cases Fields.lookup? scope field <;> rfl

/-- What a placeholder shows with the scopes around a loop is made what it shows with that of the item too. -/
theorem replaceScoped_shows (hname : IsName name) (hfield : IsName field) (ha : IsName scopeName)
    (hw : env.Within around) (hnew : env.scope? scopeName = none)
    (hplain : ∀ items, (name, items) ∈ around → ∀ item ∈ items, ∀ n v,
      Fields.lookup? (scopeOf item n) field = some v → IsPlain v.display) (scope : Fields) (r : Text) :
    replaceScoped scopeName scope (env.shows name field ++ r) =
      Env.shows ((scopeName, scope) :: env) name field ++ replaceScoped scopeName scope r := by
  by_cases heq : name = scopeName
  · subst heq
    have hhole : env.shows name field = Condition.hole name field := by
      rw [Env.shows, hnew]
      rfl
    have hsame : Env.shows ((name, scope) :: env) name field = Env.shows [(name, scope)] name field := by
      simp [Env.shows, Env.scope?]
    rw [hhole, hsame, replaceScoped_hole name hfield]
  · have hsame : Env.shows ((scopeName, scope) :: env) name field = env.shows name field := by
      simp [Env.shows, Env.scope?, Ne.symm heq]
    rw [hsame]
    rcases shows_cases hw hplain with h | h
    · exact replaceScoped_append_of_notMem h.2.1 scopeName scope r
    · rw [h]
      exact replaceScoped_hole_of_ne hname hfield ha heq scope r

theorem brace_notMem_blockClosing : '\x7b' ∉ '<' :: blockClosing := by decide

theorem brace_notMem_blockOpening (h : IsCondition condition) : '\x7b' ∉ '<' :: blockOpening condition := by
  have hfirst : '\x7b' ∉ '<' :: "If condition=\"".toList := by decide
  have hlast : '\x7b' ∉ "\">".toList := by decide
  intro hm
  rcases List.mem_append.1 (show '\x7b' ∈ '<' :: "If condition=\"".toList ++ (condition ++ "\">".toList) from hm)
    with hm | hm
  · exact hfirst hm
  · rcases List.mem_append.1 hm with hm | hm
    · exact h.2.1 hm
    · exact hlast hm

/-- The placeholders of a scope are filled in everywhere in a template. -/
theorem replaceScoped_fill (h : t.Proper collections around) (hw : env.Within around) (ha : IsName scopeName)
    (hnew : env.scope? scopeName = none) (scope : Fields) (r : Text) :
    replaceScoped scopeName scope (t.fill env ++ r) =
      t.fill ((scopeName, scope) :: env) ++ replaceScoped scopeName scope r := by
  induction t generalizing around r with
  | nil => rfl
  | text t rest ih =>
    rw [fill, fill, List.append_assoc, List.append_assoc, replaceScoped_append_of_notMem h.1.2.1, ih h.2 hw]
  | slot name field rest ih =>
    rw [fill, fill, List.append_assoc, List.append_assoc,
      replaceScoped_shows h.1 h.2.1 ha hw hnew h.2.2.1, ih h.2.2.2 hw]
  | block condition body rest ihb ihr =>
    rw [fill, fill]
    simp only [Element.written, List.append_assoc]
    rw [replaceScoped_append_of_notMem (brace_notMem_blockOpening h.1), ihb h.2.1 hw,
      replaceScoped_append_of_notMem brace_notMem_blockClosing, ihr h.2.2 hw]
  | loop collection name body rest ihb ihr =>
    obtain ⟨hc, hname, -, ⟨items, -, -, hbody⟩, hrest⟩ := h
    rw [fill, fill, written_eq, written_eq]
    have hclosing : '\x7b' ∉ '<' :: "/ForEach>".toList := by decide
    simp only [Element.written, List.append_assoc]
    rw [replaceScoped_append_of_notMem (notMem_loopOpening hc hname (.inl rfl)), ihb hbody hw.mono,
      replaceScoped_append_of_notMem hclosing, ihr hrest hw]

theorem replaceScoped_flatMap_fill {ts : List Template} (h : ∀ t ∈ ts, t.Proper collections around)
    (hw : env.Within around) (ha : IsName scopeName) (hnew : env.scope? scopeName = none) (scope : Fields)
    (r : Text) :
    replaceScoped scopeName scope (ts.flatMap (fill env) ++ r) =
      ts.flatMap (fill ((scopeName, scope) :: env)) ++ replaceScoped scopeName scope r := by
  induction ts with
  | nil => rfl
  | cons t ts ih =>
    have ht := h t List.mem_cons_self
    rw [List.flatMap_cons, List.flatMap_cons, List.append_assoc, replaceScoped_fill ht hw ha hnew,
      ih fun s hs => h s (List.mem_cons_of_mem t hs), List.append_assoc]

/-- What the conditions leave of a template becomes a round when the placeholders of the item are filled in. -/
theorem replaceScoped_shown (h : t.Proper collections around) (hw : env.Within around) (ha : IsName scopeName)
    (hnew : env.scope? scopeName = none) (scope : Fields) (r : Text) :
    replaceScoped scopeName scope (BodyPart.shown (t.parts scopeName scope env) ++ r) =
      t.rendered ((scopeName, scope) :: env) ++ replaceScoped scopeName scope r := by
  induction t generalizing around r with
  | nil => rfl
  | text t rest ih =>
    rw [parts, BodyPart.shown, rendered, List.append_assoc, List.append_assoc, replaceScoped_append_of_notMem h.1.2.1,
      ih h.2 hw]
  | slot name field rest ih =>
    rw [parts, BodyPart.shown, rendered, List.append_assoc, List.append_assoc,
      replaceScoped_shows h.1 h.2.1 ha hw hnew h.2.2.1, ih h.2.2.2 hw]
  | block condition body rest ihb ihr =>
    have hsame : Env.holds ((scopeName, scope) :: env) condition = Env.holds [(scopeName, scope)] condition := rfl
    rw [parts, rendered, BodyPart.shown_append, hsame]
    by_cases hholds : Env.holds [(scopeName, scope)] condition
    · rw [if_pos hholds, if_pos hholds, List.append_assoc, ihb h.2.1 hw, ihr h.2.2 hw, List.append_assoc]
    · rw [if_neg hholds, if_neg hholds, BodyPart.shown_dropped, List.nil_append, List.nil_append, ihr h.2.2 hw]
  | loop collection name body rest ihb ihr =>
    obtain ⟨hc, hname, hfresh, hbody, hrest⟩ := h
    have hloop := replaceScoped_fill (t := .loop collection name body .nil)
      ⟨hc, hname, hfresh, hbody, trivial⟩ hw ha hnew scope
    simp only [fill, List.append_nil] at hloop
    rw [parts, BodyPart.shown, if_pos rfl, rendered, List.append_assoc, List.append_assoc, hloop, ihr hrest hw]

/-! ## A round -/

/-- The texts that are those of templates in a place, one after the other. -/
def Texts (collections : Collections) (around : List (Text × List Json)) (env : Env) (u : Text) : Prop :=
  ∃ ts : List Template, u = ts.flatMap (fill env) ∧ ∀ t ∈ ts, t.Proper collections around

theorem calming_texts (hw : env.Within around) : Calming (Texts collections around env) where
  calm := by
    rintro u ⟨ts, rfl, hts⟩
    induction ts with
    | nil => exact calm_of_notMem (by simp)
    | cons t ts ih =>
      rw [List.flatMap_cons]
      exact (calm_fill (hts t List.mem_cons_self) hw).append (ih fun s hs => hts s (List.mem_cons_of_mem t hs))
  nil := ⟨[], rfl, by simp⟩
  append := by
    rintro a b ⟨ts, rfl, hts⟩ ⟨us, rfl, hus⟩
    refine ⟨ts ++ us, List.flatMap_append.symm, fun t ht => ?_⟩
    rcases List.mem_append.1 ht with ht | ht
    · exact hts t ht
    · exact hus t ht
  label := by
    intro n
    refine ⟨[.text (label n) .nil], by simp [fill], ?_⟩
    have hbrace : '\x7b' ∉ label n := notMem_label (by decide) (by decide) (by decide) n
    simpa [Proper, IsPlain] using ⟨lt_notMem_label n, hbrace, null_notMem_label n⟩

theorem all_append {P : Text → Prop} {ps qs : List BodyPart} (hp : BodyPart.All P ps) (hq : BodyPart.All P qs) :
    BodyPart.All P (ps ++ qs) := by
  induction ps with
  | nil => exact hq
  | cons p ps ih => cases p <;> exact ⟨hp.1, ih hp.2⟩

theorem all_dropped {P : Text → Prop} {ps : List BodyPart} (hp : BodyPart.All P ps) : BodyPart.All P (BodyPart.dropped ps) := by
  induction ps with
  | nil => trivial
  | cons p ps ih =>
    cases p with
    | words t => exact ih hp.2
    | loop kept t => exact ⟨hp.1, ih hp.2⟩

/-- The parts of a template are texts of templates. -/
theorem all_parts (h : t.Proper collections around) (scopeName : Text) (scope : Fields) (env : Env) :
    BodyPart.All (Texts collections around env) (t.parts scopeName scope env) := by
  induction t with
  | nil => trivial
  | text t rest ih =>
    have htext : Texts collections around env t :=
      ⟨[.text t .nil], by simp [fill], fun _ hs => List.mem_singleton.1 hs ▸ ⟨h.1, trivial⟩⟩
    exact ⟨htext, ih h.2⟩
  | slot name field rest ih =>
    have hslot : Texts collections around env (env.shows name field) :=
      ⟨[.slot name field .nil], by simp [fill],
        fun _ hs => List.mem_singleton.1 hs ▸ ⟨h.1, h.2.1, h.2.2.1, trivial⟩⟩
    exact ⟨hslot, ih h.2.2.2⟩
  | block condition body rest ihb ihr =>
    rw [parts]
    refine all_append ?_ (ihr h.2.2)
    split
    · exact ihb h.2.1
    · exact all_dropped (ihb h.2.1)
  | loop collection name body rest _ ihr =>
    obtain ⟨hc, hname, hnew, hbody, hrest⟩ := h
    have hloop : Texts collections around env (written collection name (body.fill env)) :=
      ⟨[.loop collection name body .nil], by simp [fill],
        fun _ hs => List.mem_singleton.1 hs ▸ ⟨hc, hname, hnew, hbody, trivial⟩⟩
    exact ⟨⟨hloop, List.mem_cons_self⟩, ihr hrest⟩

private theorem renderItem_eq {item : Json} (hobject : isObject item) (body : Text) (n : Nat) (scopeName : Text) :
    renderItem body item n scopeName =
      replaceScoped scopeName (scopeOf item n)
        (putBack 0 (Condition.resolveBlocks (scopeOf item n) scopeName (mask 0 (pieces tag body)))
          (elementTexts (pieces tag body))) := by
  simp only [renderItem, hobject, ↓reduceIte, unmask_eq_putBack]

/-- What is put together for a round: the loops come back into what the conditions leave. -/
private theorem renderItem_fill_eq (h : t.Proper collections around) (hw : env.Within around) {item : Json}
    (hobject : isObject item) (n : Nat) (scopeName : Text) :
    renderItem (t.fill env) item n scopeName =
      replaceScoped scopeName (scopeOf item n)
        (putBack 0 (BodyPart.masked 0 (t.parts scopeName (scopeOf item n) env))
          (BodyPart.loops (t.parts scopeName (scopeOf item n) env))) := by
  have hmask : mask 0 (pieces tag (t.fill env)) = t.masked env 0 := by
    have := mask_pieces_fill h hw 0 []
    rw [List.append_nil, pieces_nil, mask, mask, List.append_nil, List.append_nil] at this
    exact this
  have hloops := elementTexts_pieces_fill h hw scopeName (scopeOf item n) []
  rw [List.append_nil, pieces_nil, elementTexts, elementTexts, List.append_nil] at hloops
  have hresolve := resolveBlocks_masked h hw scopeName (scopeOf item n) 0 []
  rw [List.append_nil, resolveBlocks_nil, List.append_nil] at hresolve
  rw [renderItem_eq hobject, hmask, hloops, hresolve]

section RenderItem

variable {item : Json} (h : t.Proper collections ((scopeName, items) :: around)) (hw : env.Within around)
  (ha : IsName scopeName) (hnew : scopeName ∉ around.map Prod.fst) (hobject : isObject item)

include h hw ha hnew hobject

/-- The body of a loop for an item, when no marker of a dropped loop occurs behind its place. -/
theorem renderItem_fill (hclean : ¬ BodyPart.Collides 0 (t.parts scopeName (scopeOf item n) env)) :
    renderItem (t.fill env) item n scopeName = t.rendered ((scopeName, scopeOf item n) :: env) := by
  have hback := putBack_masked (calming_texts hw.mono) (all_parts h scopeName (scopeOf item n) env)
    (calming_texts hw.mono).nil hclean
  have hround := replaceScoped_shown h hw.mono ha (hw.scope?_eq_none hnew) (scopeOf item n) []
  have hnil : replaceScoped scopeName (scopeOf item n) [] = [] := Text.substitute_of_free (.nil _)
  rw [List.append_nil, hnil, List.append_nil] at hround
  rw [renderItem_fill_eq h hw.mono hobject]
  rw [List.nil_append, List.nil_append] at hback
  rw [hback, hround]

/-- When one does, the end of a marker stays in the round behind texts of templates. -/
theorem renderItem_fill_of_collides (hcollides : BodyPart.Collides 0 (t.parts scopeName (scopeOf item n) env)) :
    ∃ s r, renderItem (t.fill env) item n scopeName = s ++ '\x00' :: r ∧
      Texts collections ((scopeName, items) :: around) ((scopeName, scopeOf item n) :: env) s := by
  obtain ⟨s, r, hback, ts, rfl, hts⟩ := putBack_masked_of_collides (calming_texts hw.mono)
    (all_parts h scopeName (scopeOf item n) env) (calming_texts hw.mono).nil hcollides
  have hfill := replaceScoped_flatMap_fill hts hw.mono ha (hw.scope?_eq_none hnew) (scopeOf item n) ('\x00' :: r)
  have hend : replaceScoped scopeName (scopeOf item n) ('\x00' :: r) =
      '\x00' :: replaceScoped scopeName (scopeOf item n) r :=
    replaceScoped_append_of_notMem (a := ['\x00']) (by decide) scopeName (scopeOf item n) r
  rw [List.nil_append] at hback
  have hround : renderItem (t.fill env) item n scopeName =
      ts.flatMap (fill ((scopeName, scopeOf item n) :: env)) ++
        '\x00' :: replaceScoped scopeName (scopeOf item n) r := by
    rw [renderItem_fill_eq h hw.mono hobject, hback, hfill, hend]
  exact ⟨_, _, hround, ts, rfl, hts⟩

end RenderItem

end Template

end Pagewright
