import Pagewright.Proofs.Loop.Denotation

/-!
# A loop inside of a loop

The body of a loop is filled in for an item as a text, the source of the loops in it included. What becomes of two
loops inside of each other is said here in these terms, whatever their names are and whatever stands in their bodies
(`Site.expandLoops_nest`): in each round of the outer loop its item is put into the body of the inner one
(`Loop.fillItem`), and the rounds of the inner loop are those of the body that this leaves.

Around the placeholders a body has markup, which is any text in which no loop and no block begins or ends and which
closes its braces (`Loop.IsMarkup`).
-/

namespace Pagewright

open Template

namespace Loop

variable {scopeName t a b pre post body collection : Text} {item : Json} {items : List Json} {n : Nat}

/-! ## Filling in an item -/

/-- An item that is no object is put in as a whole. -/
def nameItem (item : Json) (scopeName t : Text) : Text :=
  if isObject item then t else replaceNamed scopeName item.display t

/-- What the item of a round puts into a text: itself as a whole, and then its fields. -/
def fillItem (item : Json) (n : Nat) (scopeName t : Text) : Text :=
  replaceScoped scopeName (scopeOf item n) (nameItem item scopeName t)

theorem nameItem_of_notMem (h : '\x7b' ∉ t) : nameItem item scopeName t = t := by
  unfold nameItem
  split
  · rfl
  · exact replaceNamed_of_notMem h

theorem fillItem_of_notMem (h : '\x7b' ∉ t) : fillItem item n scopeName t = t := by
  rw [fillItem, nameItem_of_notMem h, replaceScoped_of_notMem h]

theorem nameItem_append (hname : '\x7d' ∉ scopeName) (ha : Placeholder.Closed a) (b : Text) :
    nameItem item scopeName (a ++ b) = nameItem item scopeName a ++ nameItem item scopeName b := by
  unfold nameItem
  split
  · rfl
  · exact replaceNamed_append hname ha b

theorem nameItem_append_of_notMem (hname : '\x7d' ∉ scopeName) (ha : '\x7b' ∉ a) (b : Text) :
    nameItem item scopeName (a ++ b) = a ++ nameItem item scopeName b := by
  rw [nameItem_append hname (Placeholder.closed_of_notMem ha), nameItem_of_notMem ha]

/-- An item is put in apart in two parts of a text when the first one closes its braces, the braces of the item
included. -/
theorem fillItem_append (hname : '\x7d' ∉ scopeName) (ha : Placeholder.Closed a)
    (hnamed : Placeholder.Closed (nameItem item scopeName a)) (b : Text) :
    fillItem item n scopeName (a ++ b) = fillItem item n scopeName a ++ fillItem item n scopeName b := by
  rw [fillItem, nameItem_append hname ha, replaceScoped_append hname hnamed]
  rfl

theorem fillItem_append_of_notMem (hname : '\x7d' ∉ scopeName) (ha : '\x7b' ∉ a) (b : Text) :
    fillItem item n scopeName (a ++ b) = a ++ fillItem item n scopeName b := by
  have hclosed : Placeholder.Closed a := Placeholder.closed_of_notMem ha
  have hnamed : Placeholder.Closed (nameItem item scopeName a) := by
    rw [nameItem_of_notMem ha]
    exact hclosed
  rw [fillItem_append hname hclosed hnamed, fillItem_of_notMem ha]

/-! ## Markup -/

/-- A text that closes its braces and in which no loop and no block begins or ends. -/
structure IsMarkup (t : Text) : Prop where
  closed : Placeholder.Closed t
  loops : Element.Skips tag t
  blocks : Element.Skips "If".toList t

theorem isMarkup_of_notMem (h : Placeholder.Closed t) (hlt : '<' ∉ t) : IsMarkup t :=
  ⟨h, Element.skips_of_notMem hlt, Element.skips_of_notMem hlt⟩

theorem IsMarkup.append (ha : IsMarkup a) (hb : IsMarkup b) : IsMarkup (a ++ b) :=
  ⟨ha.closed.append hb.closed, ha.loops.append hb.loops, ha.blocks.append hb.blocks⟩

/-- The text is markup, and stays markup when any of the items is put in. -/
structure Surrounds (items : List Json) (scopeName t : Text) : Prop where
  markup : IsMarkup t
  named : ∀ item ∈ items, Placeholder.Closed (nameItem item scopeName t)
  filled : ∀ item ∈ items, ∀ n, IsMarkup (fillItem item n scopeName t)

/-- Markup without braces takes nothing from an item. -/
theorem surrounds_of_notMem (h : IsMarkup t) (hbrace : '\x7b' ∉ t) (items : List Json) (scopeName : Text) :
    Surrounds items scopeName t where
  markup := h
  named := fun item _ => by
    rw [nameItem_of_notMem hbrace]
    exact h.closed
  filled := fun item _ n => by
    rw [fillItem_of_notMem hbrace]
    exact h

/-- Two parts that stay markup stay markup together. -/
theorem Surrounds.append (hname : '\x7d' ∉ scopeName) (ha : Surrounds items scopeName a)
    (hb : Surrounds items scopeName b) : Surrounds items scopeName (a ++ b) where
  markup := ha.markup.append hb.markup
  named := fun item hitem => by
    rw [nameItem_append hname ha.markup.closed]
    exact (ha.named item hitem).append (hb.named item hitem)
  filled := fun item hitem n => by
    rw [fillItem_append hname ha.markup.closed (ha.named item hitem)]
    exact (ha.filled item hitem n).append (hb.filled item hitem n)

/-! ## Rounds -/

private theorem mask_pieces_nil (n : Nat) : mask n (pieces tag []) = [] := by
  rw [pieces_nil]
  rfl

private theorem elementTexts_pieces_nil : elementTexts (pieces tag []) = [] := by
  rw [pieces_nil]
  rfl

/-- Where a body has no loops, a round resolves its blocks and puts in the item. -/
theorem renderItem_of_skips_loops (hloops : Element.Skips tag body) (item : Json) (n : Nat) (scopeName : Text) :
    renderItem body item n scopeName =
      fillItem item n scopeName (Condition.resolveBlocks (scopeOf item n) scopeName body) := by
  have hmask : mask 0 (pieces tag body) = body := by
    have h := mask_pieces_of_skips hloops 0 []
    rwa [mask_pieces_nil, List.append_nil] at h
  have htexts : elementTexts (pieces tag body) = [] := by
    have h := elementTexts_pieces_of_skips hloops []
    rwa [elementTexts_pieces_nil, List.append_nil] at h
  unfold renderItem
  simp only [unmask_eq_putBack, hmask, htexts, putBack]
  rfl

/-- Where a body has no loops and no blocks, a round puts in the item and does nothing else. -/
theorem renderItem_of_skips (hloops : Element.Skips tag body) (hblocks : Element.Skips "If".toList body)
    (item : Json) (n : Nat) (scopeName : Text) :
    renderItem body item n scopeName = fillItem item n scopeName body := by
  have hresolve := resolveBlocks_of_skips hblocks (scopeOf item n) scopeName []
  rw [resolveBlocks_nil, List.append_nil] at hresolve
  rw [renderItem_of_skips_loops hloops, hresolve]

theorem text_writtenElement (collection scopeName body : Text) :
    (writtenElement collection scopeName body).text = written collection scopeName body := by
  simp [writtenElement, Element.text, written]

/-- A body of markup around a loop: the markers that are set for the loop are taken away again, and the item is put
in everywhere. -/
theorem renderItem_around {name : Text} (hc : '"' ∉ collection) (ha : '"' ∉ scopeName)
    (hpre : IsMarkup pre) (hnull : '\x00' ∉ pre) (hpost : IsMarkup post) (hb : Element.Balanced tag body)
    (item : Json) (n : Nat) :
    renderItem (pre ++ (written collection scopeName body ++ post)) item n name =
      fillItem item n name (pre ++ (written collection scopeName body ++ post)) := by
  have hmask : mask 0 (pieces tag (pre ++ (written collection scopeName body ++ post))) =
      pre ++ (marker 0 ++ post) := by
    have h := mask_pieces_of_skips hpost.loops 1 []
    rw [mask_pieces_nil, List.append_nil] at h
    rw [mask_pieces_of_skips hpre.loops, pieces_loop hc ha hb, mask, mask, h, List.nil_append]
  have htexts : elementTexts (pieces tag (pre ++ (written collection scopeName body ++ post))) =
      [written collection scopeName body] := by
    have h := elementTexts_pieces_of_skips hpost.loops []
    rw [elementTexts_pieces_nil, List.append_nil] at h
    rw [elementTexts_pieces_of_skips hpre.loops, pieces_loop hc ha hb, elementTexts, elementTexts, h,
      text_writtenElement]
  have hresolve : Condition.resolveBlocks (scopeOf item n) name (pre ++ (marker 0 ++ post)) =
      pre ++ (marker 0 ++ post) := by
    have h := resolveBlocks_of_skips hpost.blocks (scopeOf item n) name []
    rw [resolveBlocks_nil, List.append_nil] at h
    rw [resolveBlocks_of_skips hpre.blocks, resolveBlocks_of_skips (skips_marker 0), h]
  have hback : putBack 0 (pre ++ (marker 0 ++ post)) [written collection scopeName body] =
      pre ++ (written collection scopeName body ++ post) := by
    rw [putBack, putBack, (calm_of_notMem hnull).replaceFirst_append, replaceFirst_marker]
  unfold renderItem
  simp only [unmask_eq_putBack, hmask, htexts, hresolve, hback]
  rfl

/-- The item of a loop around another one is put into its markup and into the body of the other loop. -/
theorem fillItem_around {name : Text} (hname : '\x7d' ∉ name) (hc : '\x7b' ∉ collection) (ha : '\x7b' ∉ scopeName)
    (hpre : Placeholder.Closed pre) (hpre' : Placeholder.Closed (nameItem item name pre))
    (hb : Placeholder.Closed body) (hb' : Placeholder.Closed (nameItem item name body)) (n : Nat) :
    fillItem item n name (pre ++ (written collection scopeName body ++ post)) =
      fillItem item n name pre ++
        (written collection scopeName (fillItem item n name body) ++ fillItem item n name post) := by
  have hopening : '\x7b' ∉ '<' :: (tag ++ writtenAttributes collection scopeName) := by
    have hfirst : '\x7b' ∉ '<' :: tag := by decide
    have hcollection : '\x7b' ∉ " collection=\"".toList := by decide
    have has : '\x7b' ∉ "\" as=\"".toList := by decide
    have hend : '\x7b' ∉ "\">".toList := by decide
    rw [← List.cons_append, List.mem_append]
    unfold writtenAttributes
    rw [List.mem_append, List.mem_append, List.mem_append, List.mem_append]
    rintro (hm | (((hm | hm) | hm) | hm) | hm)
    · exact hfirst hm
    · exact hcollection hm
    · exact hc hm
    · exact has hm
    · exact ha hm
    · exact hend hm
  have hclosing : '\x7b' ∉ closingTag := by decide
  have htext : ∀ w z : Text, written collection scopeName w ++ z =
      ('<' :: (tag ++ writtenAttributes collection scopeName)) ++ (w ++ (closingTag ++ z)) := by
    intro w z
    unfold written
    simp only [List.cons_append, List.append_assoc]
  rw [fillItem_append hname hpre hpre', htext, fillItem_append_of_notMem hname hopening,
    fillItem_append hname hb hb', fillItem_append_of_notMem hname hclosing, htext]

theorem isBody_of_balanced (h : Element.Balanced tag body) : IsBody body := by
  have hclosing : closingTag = '<' :: "/ForEach>".toList ++ [] := by decide
  rw [IsBody, h, hclosing, closes_loop.closing?_zero]
  simp [Element.prepend]

theorem balanced_around (hc : '"' ∉ collection) (ha : '"' ∉ scopeName) (hpre : Element.Skips tag pre)
    (hpost : Element.Skips tag post) (hb : Element.Balanced tag body) :
    Element.Balanced tag (pre ++ (written collection scopeName body ++ post)) := by
  rw [written_eq]
  exact hpre.balanced.append ((hb.written (opens_loop hc ha) closes_loop).append hpost.balanced)

/-! ## Two loops -/

/-- A loop and a loop in its body, with the names of their collections and of their items, the body of the inner
loop, and what stands before and behind it in the body of the outer one. -/
structure Nest where
  outerCollection : Text
  outer : Text
  pre : Text
  innerCollection : Text
  inner : Text
  body : Text
  post : Text

/-- The two loops as they are written. -/
def Nest.text (nest : Nest) : Text :=
  written nest.outerCollection nest.outer (nest.pre ++ (written nest.innerCollection nest.inner nest.body ++ nest.post))

/-- A name that can stand between double quotes, and that no placeholder begins or ends in. -/
def IsPlainName (name : Text) : Prop := ∀ c ∈ name, c ∉ "\"\x7b\x7d".toList

instance (name : Text) : Decidable (IsPlainName name) := inferInstanceAs (Decidable (∀ c ∈ name, _))

theorem IsPlainName.notMem {c : Char} (h : IsPlainName t) (hc : c ∈ "\"\x7b\x7d".toList) : c ∉ t :=
  fun hm => h c hm hc

/-- The two loops and the markup around the inner one are read as they are written, also when any of the items of the
outer loop has been put in. -/
structure Nest.Frames (nest : Nest) (items : List Json) : Prop where
  outerCollection : '"' ∉ nest.outerCollection
  outer : IsPlainName nest.outer
  innerCollection : IsPlainName nest.innerCollection
  inner : IsPlainName nest.inner
  pre : Surrounds items nest.outer nest.pre
  null : '\x00' ∉ nest.pre
  post : Surrounds items nest.outer nest.post

/-- The text is the body of a loop, also when any of the items of a loop around it has been put in. -/
structure IsInnerBody (items : List Json) (outer body : Text) : Prop where
  closed : Placeholder.Closed body
  balanced : Element.Balanced tag body
  named : ∀ item ∈ items, Placeholder.Closed (nameItem item outer body)
  filled : ∀ item ∈ items, ∀ n, Element.Balanced tag (fillItem item n outer body)

theorem Surrounds.isInnerBody (h : Surrounds items scopeName body) : IsInnerBody items scopeName body where
  closed := h.markup.closed
  balanced := h.markup.loops.balanced
  named := h.named
  filled := fun item hitem n => (h.filled item hitem n).loops.balanced

end Loop

namespace Site

open Loop

variable {σ : Type} [Storage σ] {site : Site σ} {frontmatter : Option Fields}
  {collection scopeName pre post body : Text} {items outerItems : List Json} {n : ℕ}

/-! ## Expansion -/

theorem inSequence_eq_map {α ε : Type} (f : α → Option (Except ε Text)) (as : List α) :
    inSequence f as = inSequence id (as.map f) := by
  induction as with
  | nil => rfl
  | cons a as ih =>
    rw [List.map_cons, inSequence, inSequence, ih]
    rfl

/-- A text without tags of loops stays as it is. -/
theorem expandLoopsWithin_eq_self (h : Element.Skips tag body) (n : ℕ) :
    site.expandLoopsWithin frontmatter n body = some (.ok body) := by
  have hempty : site.expandLoopsWithin frontmatter n [] = some (.ok []) := expandLoopsWithin_nil n
  rw [← List.append_nil body, expandLoopsWithin_of_skips h, hempty]
  simp [Except.map]

/-- A loop with markup around it: its rounds, between the markup. -/
theorem expandLoopsWithin_around (hc : '"' ∉ collection) (ha : '"' ∉ scopeName) (hpre : Element.Skips tag pre)
    (hpost : Element.Skips tag post) (hb : Element.Balanced tag body)
    (hdata : site.loopData? frontmatter collection = .ok (some (.array items))) (n : ℕ) :
    site.expandLoopsWithin frontmatter (n + 1) (pre ++ (written collection scopeName body ++ post)) =
      (inSequence (site.expandLoopsWithin frontmatter n) (roundsOf body items scopeName)).map
        (Except.map fun out => pre ++ (out ++ post)) := by
  obtain ⟨u, ps, hnil, htail⟩ := pieces_append_of_skips hpost []
  rw [pieces_nil, List.cons.injEq, Piece.text.injEq] at hnil
  obtain ⟨rfl, rfl⟩ := hnil
  rw [List.append_nil] at htail
  have hpiece : ∀ t, site.expandPiece frontmatter (site.expandLoopsWithin frontmatter n) (.text t) = some (.ok t) :=
    fun _ => rfl
  have hloop : site.expandPiece frontmatter (site.expandLoopsWithin frontmatter n)
      (.element (writtenElement collection scopeName body)) =
        inSequence (site.expandLoopsWithin frontmatter n) (roundsOf body items scopeName) :=
    expandPiece_element (rounds?_writtenElement hdata)
  rw [expandLoopsWithin_of_skips hpre, expandLoopsWithin_succ, pieces_loop hc ha hb, htail,
    inSequence_cons_of_ok (hpiece [])]
  cases hrounds : inSequence (site.expandLoopsWithin frontmatter n) (roundsOf body items scopeName) with
  | none =>
    rw [hrounds] at hloop
    rw [inSequence_cons_of_none hloop]
    rfl
  | some result =>
    rw [hrounds] at hloop
    cases result with
    | error err =>
      rw [inSequence_cons_of_error hloop]
      rfl
    | ok out =>
      rw [inSequence_cons_of_ok hloop, inSequence_cons_of_ok (hpiece post), inSequence_nil]
      simp [Except.map]

/-- Two loops inside of each other: in each round of the outer one its item is put into the body of the inner one
and into the markup around it, and what is left are the rounds of the inner one. -/
theorem expandLoops_nest {nest : Nest} (h : nest.Frames outerItems)
    (hbody : IsInnerBody outerItems nest.outer nest.body)
    (houter : site.loopData? frontmatter nest.outerCollection = .ok (some (.array outerItems)))
    (hinner : site.loopData? frontmatter nest.innerCollection = .ok (some (.array items)))
    (hstack : site.stack = n + 1) :
    site.expandLoops frontmatter nest.text =
      inSequence id (outerItems.mapIdx fun k item =>
        (inSequence (site.expandLoopsWithin frontmatter n)
          (roundsOf (fillItem item k nest.outer nest.body) items nest.inner)).map
            (Except.map fun out =>
              fillItem item k nest.outer nest.pre ++ (out ++ fillItem item k nest.outer nest.post))) := by
  have hquote : '"' ∈ "\"\x7b\x7d".toList := by decide
  have hopen : '\x7b' ∈ "\"\x7b\x7d".toList := by decide
  have hclose : '\x7d' ∈ "\"\x7b\x7d".toList := by decide
  have hread : IsBody (nest.pre ++ (written nest.innerCollection nest.inner nest.body ++ nest.post)) :=
    isBody_of_balanced (balanced_around (h.innerCollection.notMem hquote) (h.inner.notMem hquote) h.pre.markup.loops
      h.post.markup.loops hbody.balanced)
  rw [expandLoops, hstack, Nest.text, expandLoopsWithin_written h.outerCollection (h.outer.notMem hquote) hread houter,
    inSequence_eq_map]
  refine congrArg (inSequence id) (List.ext_getElem (by simp [roundsOf]) fun k _ hk => ?_)
  have hlt : k < outerItems.length := by simpa using hk
  have hitem : outerItems[k] ∈ outerItems := List.getElem_mem hlt
  simp only [roundsOf, List.getElem_map, List.getElem_mapIdx]
  rw [renderItem_around (h.innerCollection.notMem hquote) (h.inner.notMem hquote) h.pre.markup h.null h.post.markup
      hbody.balanced,
    fillItem_around (h.outer.notMem hclose) (h.innerCollection.notMem hopen) (h.inner.notMem hopen) h.pre.markup.closed
      (h.pre.named _ hitem) hbody.closed (hbody.named _ hitem),
    expandLoopsWithin_around (h.innerCollection.notMem hquote) (h.inner.notMem hquote) (h.pre.filled _ hitem k).loops
      (h.post.filled _ hitem k).loops (hbody.filled _ hitem k) hinner]
  rfl

end Site

end Pagewright
