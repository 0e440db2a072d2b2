import Pagewright.Markdown.Html
import Pagewright.Proofs.Markdown.Slugger

/-!
# Headings that can be linked to

The headings of a document are found in its events, and their slugs are put into the events at the places where they
open. Three things live here:

* what is found of headings in events, before there are slugs (`foundFrom`, `headingsFrom_eq`);
* events in which headings follow each other (`FlatHeadings`), as in those of every document (`flatHeadings_events`):
  their headings are named by their slugs, in order (`headingIds_named`);
* so each entry of a table of contents leads to one heading (`toc_leads_to_headings`).
-/

namespace Pagewright.Markdown

open Slugger

variable {es fs inner rest : List Event} {e : Event} {index : ℕ} {current : OpenHeading}

/-! ## What is found -/

namespace Event

/-- Does a heading open or close? -/
def isOfHeading : Event → Bool
  | .opens (.heading _ _) | .closes (.heading _ _) => true
  | _ => false

/-- The name for links of a heading that opens. -/
def headingId? : Event → Option (Option Text)
  | .opens (.heading _ id) => some id
  | _ => none

/-- The text that an event gives to the heading around it. -/
def headingText : Event → Text
  | .text t | .code t => t
  | _ => []

end Event

/-- The names for links of the headings in events. -/
def headingIds (es : List Event) : List (Option Text) := es.filterMap Event.headingId?

/-- What is found of headings in events, the first of which has the given index: where they open, their levels and
their texts. -/
def foundFrom (index : ℕ) (current : OpenHeading) : List Event → List (ℕ × ℕ × Text)
  | [] => []
  | .opens (.heading level _) :: rest => foundFrom (index + 1) (some (index, level, [])) rest
  | .closes (.heading _ _) :: rest =>
    (current.map fun (i, level, s) => (i, level, Text.trim s)).toList ++ foundFrom (index + 1) none rest
  | e :: rest =>
    foundFrom (index + 1) (current.map fun (i, level, s) => (i, level, s ++ e.headingText)) rest

theorem foundFrom_cons (he : e.isOfHeading = false) :
    foundFrom index current (e :: rest) =
      foundFrom (index + 1) (current.map fun (i, level, s) => (i, level, s ++ e.headingText)) rest := by
  rw [foundFrom]
  · rintro level id rfl
    cases he
  · rintro level id rfl
    cases he

/-- The headings are what is found, with slugs. -/
theorem headingsFrom_eq (index : ℕ) (current : OpenHeading) (s : Slugger) (es : List Event) :
    headingsFrom index current s es = s.assign (foundFrom index current es) := by
  induction es generalizing index current s with
  | nil => rfl
  | cons e rest ih =>
    have hother : e.isOfHeading = false → e.headingText = [] →
        headingsFrom (index + 1) current s rest = s.assign (foundFrom index current (e :: rest)) := by
      intro he htext
      rw [foundFrom_cons he, htext, ih]
      cases current <;> simp
    unfold headingsFrom
    split
    · exact ih _ _ _
    · exact ih _ _ _
    · exact ih _ _ _
    · cases current with
      | none => exact ih _ _ _
      | some heading => exact congrArg _ (ih _ _ _)
    · next hopens htext hcode hcloses =>
      refine hother ?_ ?_
      · unfold Event.isOfHeading
        split
        · exact absurd rfl (hopens _ _)
        · exact absurd rfl (hcloses _ _)
        · rfl
      · unfold Event.headingText
        split
        · exact absurd rfl (htext _)
        · exact absurd rfl (hcode _)
        · rfl

theorem headings_eq (es : List Event) : headings es = Slugger.empty.assign (foundFrom 0 none es) :=
  headingsFrom_eq 0 none .empty es

/-- Between the events of a heading that is open and those behind it, its text grows. -/
theorem foundFrom_append (hinner : ∀ e ∈ inner, e.isOfHeading = false) :
    foundFrom index current (inner ++ rest) = foundFrom (index + inner.length)
      (current.map fun (i, level, s) => (i, level, s ++ inner.flatMap Event.headingText)) rest := by
  induction inner generalizing index current with
  | nil => cases current <;> simp
  | cons e inner ih =>
    obtain ⟨he, hinner⟩ := List.forall_mem_cons.1 hinner
    rw [List.cons_append, foundFrom_cons he, ih hinner, List.length_cons, Nat.add_right_comm, Nat.add_assoc]
    cases current <;> simp

/-- What is found of a heading. -/
theorem foundFrom_heading (level level' : ℕ) (id id' : Option Text)
    (hinner : ∀ e ∈ inner, e.isOfHeading = false) (rest : List Event) :
    foundFrom index none (.opens (.heading level id) :: (inner ++ .closes (.heading level' id') :: rest)) =
      (index, level, Text.trim (inner.flatMap Event.headingText)) ::
        foundFrom (index + 1 + inner.length + 1) none rest := by
  rw [foundFrom, foundFrom_append hinner]
  rfl

/-! ## Headings that follow each other -/

/-- Events in which headings follow each other: none of them lies in another one, and each ends. -/
inductive FlatHeadings : List Event → Prop
  | nil : FlatHeadings []
  | other {e : Event} {rest : List Event} (he : e.isOfHeading = false) : FlatHeadings rest → FlatHeadings (e :: rest)
  | heading (level level' : ℕ) (id id' : Option Text) {inner rest : List Event}
    (hinner : ∀ e ∈ inner, e.isOfHeading = false) : FlatHeadings rest →
    FlatHeadings (.opens (.heading level id) :: (inner ++ .closes (.heading level' id') :: rest))

theorem FlatHeadings.append (hes : FlatHeadings es) (hfs : FlatHeadings fs) : FlatHeadings (es ++ fs) := by
  induction hes with
  | nil => exact hfs
  | other he _ ih => exact .other he ih
  | heading level level' id id' hinner _ ih =>
    rw [List.cons_append, List.append_assoc]
    exact .heading level level' id id' hinner ih

theorem FlatHeadings.of_forall (h : ∀ e ∈ es, e.isOfHeading = false) : FlatHeadings es := by
  induction es with
  | nil => exact .nil
  | cons e es ih =>
    obtain ⟨he, hes⟩ := List.forall_mem_cons.1 h
    exact .other he (ih hes)

/-- An element that is no heading, around events in which headings follow each other. -/
theorem FlatHeadings.around {x : Element} (hx : (Event.opens x).isOfHeading = false) (h : FlatHeadings es) :
    FlatHeadings (x.around es) := by
  have hcloses : (Event.closes x).isOfHeading = false := by
    cases x <;> first | rfl | cases hx
  exact .other hx (h.append (.other hcloses .nil))

theorem forall_around {x : Element} (hx : (Event.opens x).isOfHeading = false)
    (h : ∀ e ∈ es, e.isOfHeading = false) : ∀ e ∈ x.around es, e.isOfHeading = false := by
  have hcloses : (Event.closes x).isOfHeading = false := by
    cases x <;> first | rfl | cases hx
  intro e he
  simp only [Element.around, List.cons_append, List.mem_cons, List.mem_append, List.not_mem_nil, or_false] at he
  rcases he with rfl | he | rfl
  · exact hx
  · exact h e he
  · exact hcloses

mutual

/-- There are no headings in running text. -/
theorem Inline.not_isOfHeading (i : Inline) : ∀ e ∈ i.events, e.isOfHeading = false := by
  cases i with
  | text t | code t | html t => simp [Inline.events, Event.isOfHeading]
  | softBreak | hardBreak => simp [Inline.events, Event.isOfHeading]
  | emphasis inner | strong inner | strikethrough inner | link mail target inner | image target inner =>
    rw [Inline.events]
    exact forall_around rfl (Inline.not_isOfHeading_of_all inner)

theorem Inline.not_isOfHeading_of_all (l : List Inline) : ∀ e ∈ Inline.eventsOfAll l, e.isOfHeading = false := by
  cases l with
  | nil => simp [Inline.eventsOfAll]
  | cons i rest =>
    intro e he
    rw [Inline.eventsOfAll, List.mem_append] at he
    rcases he with he | he
    · exact Inline.not_isOfHeading i e he
    · exact Inline.not_isOfHeading_of_all rest e he

end

theorem not_isOfHeading_textEvents (s : Surroundings) (source : List Line) :
    ∀ e ∈ textEvents s source, e.isOfHeading = false := Inline.not_isOfHeading_of_all _

theorem not_isOfHeading_cellEvents (s : Surroundings) (row : List Line) :
    ∀ e ∈ cellEvents s row, e.isOfHeading = false := by
  intro e he
  obtain ⟨cell, -, he⟩ := List.mem_flatMap.1 he
  exact forall_around rfl (not_isOfHeading_textEvents _ _) e he

mutual

theorem Block.flatHeadings_events (s : Surroundings) (tight : Bool) (b : Block) : FlatHeadings (b.events s tight) := by
  cases b with
  | paragraph source =>
    rw [Block.events]
    have htext : FlatHeadings (textEvents s source) := .of_forall (not_isOfHeading_textEvents s source)
    split
    · exact htext
    · exact htext.around rfl
  | heading level source =>
    rw [Block.events]
    exact .heading level level none none (not_isOfHeading_textEvents s source) .nil
  | rule =>
    rw [Block.events]
    exact .other rfl .nil
  | code info body | html body =>
    rw [Block.events]
    exact (FlatHeadings.other rfl .nil).around rfl
  | table columns head rows =>
    rw [Block.events]
    refine FlatHeadings.around rfl (.append (.around rfl ?_) ?_)
    · exact .of_forall (not_isOfHeading_cellEvents s head)
    · refine .of_forall fun e he => ?_
      obtain ⟨row, -, he⟩ := List.mem_flatMap.1 he
      exact forall_around rfl (not_isOfHeading_cellEvents s row) e he
  | quote blocks =>
    rw [Block.events]
    exact (Block.flatHeadings_eventsOfAll s false blocks).around rfl
  | list start isTight items =>
    rw [Block.events]
    exact (Block.flatHeadings_eventsOfAll s isTight items).around rfl
  | item blocks =>
    rw [Block.events]
    exact (Block.flatHeadings_eventsOfAll s tight blocks).around rfl

theorem Block.flatHeadings_eventsOfAll (s : Surroundings) (tight : Bool) (blocks : List Block) :
    FlatHeadings (Block.eventsOfAll s tight blocks) := by
  cases blocks with
  | nil =>
    rw [Block.eventsOfAll]
    exact .nil
  | cons b rest =>
    rw [Block.eventsOfAll]
    exact (Block.flatHeadings_events s tight b).append (Block.flatHeadings_eventsOfAll s tight rest)

end

/-- In a document, headings follow each other. -/
theorem flatHeadings_events (t : Text) : FlatHeadings (events t) := Block.flatHeadings_eventsOfAll _ _ _

/-! ## Names for links -/

theorem headingIds_append (es fs : List Event) : headingIds (es ++ fs) = headingIds es ++ headingIds fs :=
  List.filterMap_append

theorem headingIds_eq_nil (h : ∀ e ∈ es, e.isOfHeading = false) : headingIds es = [] := by
  refine List.filterMap_eq_nil_iff.2 fun e he => ?_
  have hother := h e he
  unfold Event.headingId?
  split
  · cases hother
  · rfl

/-- Events with the slugs of headings put in where the headings open. -/
def nameAll (hs : List Heading) (es : List Event) : List Event :=
  hs.foldl (fun es h => es.modify h.index (Event.withId h.slug)) es

theorem named_eq (es : List Event) : named es = nameAll (headings es) es := rfl

/-- The slugs are put in one after the other, each at the next heading. -/
theorem FlatHeadings.headingIds_nameAll (h : FlatHeadings es) (s : Slugger) (front : List Event) :
    headingIds (nameAll (s.assign (foundFrom front.length none es)) (front ++ es)) =
      headingIds front ++ (s.assign (foundFrom front.length none es)).map fun h => some h.slug := by
  induction h generalizing s front with
  | nil => simp [foundFrom, assign, nameAll]
  | @other e rest he _ ih =>
    have hnone : headingIds [e] = [] := headingIds_eq_nil (by simpa using he)
    have hfront : headingIds (front ++ [e]) = headingIds front := by rw [headingIds_append, hnone, List.append_nil]
    have hlength : (front ++ [e]).length = front.length + 1 := by simp
    rw [foundFrom_cons he, List.append_cons, ← hlength, ← hfront]
    exact ih s (front ++ [e])
  | @heading level level' id id' inner rest hinner _ ih =>
    rw [foundFrom_heading level level' id id' hinner, assign]
    generalize Text.trim (inner.flatMap Event.headingText) = t
    -- the heading that was found is the one behind the events in front
    let opened : Event := .opens (.heading level (some (s.unique t).1))
    let before := front ++ opened :: (inner ++ [.closes (.heading level' id')])
    have hlength : before.length = front.length + 1 + inner.length + 1 := by
      simp [before]
      omega
    have hids : headingIds before = headingIds front ++ [some (s.unique t).1] := by
      have hcloses : headingIds (inner ++ [.closes (.heading level' id')]) = [] := by
        rw [headingIds_append, headingIds_eq_nil hinner]
        rfl
      have hopened : headingIds (opened :: (inner ++ [.closes (.heading level' id')])) =
          some (s.unique t).1 :: headingIds (inner ++ [.closes (.heading level' id')]) := rfl
      rw [headingIds_append, hopened, hcloses]
    have hmodify : (front ++ .opens (.heading level id) :: (inner ++ .closes (.heading level' id') :: rest)).modify
        front.length (Event.withId (s.unique t).1) = before ++ rest := by
      rw [List.modify_eq_take_drop, List.take_left, List.drop_left]
      simp [before, opened, Event.withId]
    show headingIds (nameAll (assign _ _) (List.modify _ _ _)) = _
    rw [hmodify, ← hlength, ih, hids, List.map_cons, List.append_assoc]
    rfl

theorem headingIds_named (h : FlatHeadings es) : headingIds (named es) = (headings es).map fun h => some h.slug := by
  rw [named_eq, headings_eq]
  exact h.headingIds_nameAll .empty []

theorem length_nameAll (hs : List Heading) (es : List Event) : (nameAll hs es).length = es.length := by
  induction hs generalizing es with
  | nil => rfl
  | cons h hs ih => exact (ih _).trans (List.length_modify _ _ _)

/-- Wherever headings are said to open, other events stay as they are. -/
theorem getElem?_nameAll (hs : List Heading) {i : ℕ} (hi : es[i]? = some e) (he : e.headingId? = none) :
    (nameAll hs es)[i]? = some e := by
  induction hs generalizing es with
  | nil => exact hi
  | cons h hs ih =>
    refine ih ?_
    have hwith : Event.withId h.slug e = e := by
      unfold Event.withId
      split
      · cases he
      · rfl
    rw [List.getElem?_modify, hi]
    split
    · exact congrArg some hwith
    · rfl

/-! ## Tables of contents -/

/-- The entries of a table of contents for the headings in events. -/
def entriesFor (es : List Event) : List TocEntry :=
  (headings es).zipIdx.map fun (h, i) => ⟨h.text, h.slug, h.level, i, h.seen⟩

theorem tocEntries_eq (t : Text) : tocEntries t = entriesFor (events t) := rfl

/-- What the entries have of the headings themselves. -/
theorem map_entriesFor {α : Type} (f : TocEntry → α) (g : Heading → α) (es : List Event)
    (hfg : ∀ (h : Heading) (i : ℕ), f ⟨h.text, h.slug, h.level, i, h.seen⟩ = g h) :
    (entriesFor es).map f = (headings es).map g := by
  have hcomp : (fun p : Heading × ℕ => f ⟨p.1.text, p.1.slug, p.1.level, p.2, p.1.seen⟩) = g ∘ Prod.fst :=
    funext fun p => hfg p.1 p.2
  calc (entriesFor es).map f
      = (headings es).zipIdx.map fun p => f ⟨p.1.text, p.1.slug, p.1.level, p.2, p.1.seen⟩ := List.map_map
    _ = ((headings es).zipIdx.map Prod.fst).map g := by rw [hcomp, List.map_map]
    _ = (headings es).map g := by rw [List.zipIdx_map_fst]

theorem map_slug_entriesFor (es : List Event) : (entriesFor es).map (·.slug) = (headings es).map (·.slug) :=
  map_entriesFor _ _ es fun _ _ => rfl

theorem getElem?_entriesFor {i : ℕ} {entry : TocEntry} (hi : (entriesFor es)[i]? = some entry) :
    ∃ h, (headings es)[i]? = some h ∧ entry = ⟨h.text, h.slug, h.level, i, h.seen⟩ := by
  rw [entriesFor, List.getElem?_map, Option.map_eq_some_iff] at hi
  obtain ⟨⟨h, j⟩, hj, rfl⟩ := hi
  rw [List.getElem?_zipIdx, Option.map_eq_some_iff] at hj
  obtain ⟨h', hh', heq⟩ := hj
  obtain ⟨rfl, rfl⟩ := Prod.mk.inj heq
  exact ⟨h', hh', by simp⟩

/-- A table of contents whose entries lead to the headings of shown events, which are those of a document but for the
names of the headings. -/
structure LeadsTo (entries : List TocEntry) (es shown : List Event) : Prop where
  /-- The names of the headings are the slugs, in order. -/
  ids : headingIds shown = entries.map fun e => some e.slug
  /-- No two of them are the same. -/
  distinct : (entries.map (·.slug)).Nodup
  length : shown.length = es.length
  /-- All other events are as they were. -/
  others : ∀ (i : ℕ) (e : Event), es[i]? = some e → e.headingId? = none → shown[i]? = some e
  /-- An entry knows how many entries before it have the same slug on their own. -/
  seen : ∀ (i : ℕ) (e : TocEntry), entries[i]? = some e → e.position = i ∧
    e.seen = (entries.take i).countP fun g => slugify g.content = slugify e.content

theorem FlatHeadings.leadsTo (h : FlatHeadings es) : LeadsTo (entriesFor es) es (named es) where
  ids := by
    have hslugs := congrArg (List.map some) (map_slug_entriesFor es)
    rw [List.map_map, List.map_map] at hslugs
    exact (headingIds_named h).trans hslugs.symm
  distinct := by
    rw [map_slug_entriesFor, headings_eq]
    exact (nodup_assign .empty _).1
  length := length_nameAll _ _
  others i e hi he := getElem?_nameAll _ hi he
  seen i e hi := by
    obtain ⟨g, hg, rfl⟩ := getElem?_entriesFor hi
    have hcontents : (entriesFor es).map (fun f => slugify f.content) = (headings es).map fun f => slugify f.text :=
      map_entriesFor _ _ es fun _ _ => rfl
    have hcount : ((entriesFor es).take i).countP (fun f => slugify f.content = slugify g.text) =
        ((headings es).take i).countP fun f => slugify f.text = slugify g.text := by
      calc ((entriesFor es).take i).countP (fun f => slugify f.content = slugify g.text)
          = (((entriesFor es).map fun f => slugify f.content).take i).countP fun u => u = slugify g.text := by
            rw [← List.map_take, List.countP_map]
            rfl
        _ = ((headings es).take i).countP fun f => slugify f.text = slugify g.text := by
            rw [hcontents, ← List.map_take, List.countP_map]
            rfl
    refine ⟨rfl, ?_⟩
    dsimp only
    rw [hcount]
    rw [headings_eq] at hg ⊢
    have hseen := seen_assign .empty _ hg
    rw [hseen]
    exact Nat.zero_add _

/-- In whatever events headings follow each other, as they do in those of every text, the entries of the table of
contents lead to them, one to one and in order. For that a slug is looked for and found in every state of the slugger:
the first new one, after at most as many steps as there are slugs. -/
theorem toc_leads_to_headings :
    (∀ es : List Event, FlatHeadings es → LeadsTo (entriesFor es) es (named es)) ∧
    (∀ t : Text, FlatHeadings (events t) ∧ LeadsTo (tocEntries t) (events t) (named (events t)) ∧
      render t = writeHtml (named (events t))) ∧
    ∀ (s : Slugger) (t : Text), ∃ n, s.count (slugify t) ≤ n ∧ n ≤ s.count (slugify t) + s.issued.length ∧
      (∀ k, s.count (slugify t) ≤ k → k < n → numbered (slugify t) k ∈ s.issued) ∧
      numbered (slugify t) n ∉ s.issued ∧ (s.unique t).1 = numbered (slugify t) n := by
  refine ⟨fun es h => h.leadsTo, fun t => ?_, fun s t => ?_⟩
  · exact ⟨flatHeadings_events t, (flatHeadings_events t).leadsTo, rfl⟩
  · obtain ⟨n, hle, hbound, hfree, hleast, heq⟩ := s.exists_unique_eq t
    exact ⟨n, hle, hbound, hleast, hfree, by rw [heq]⟩

/-- Three headings, the slug of the last one of which is given out with a number before. -/
def faqEvents : List Event :=
  [.opens (.heading 1 none), .text "FAQ".toList, .closes (.heading 1 none), .rule,
    .opens (.heading 2 none), .text "F".toList, .code "aq".toList, .closes (.heading 2 none),
    .opens (.heading 2 none), .text "FAQ 1".toList, .closes (.heading 2 none)]

theorem toc_leads_to_headings_faq : FlatHeadings faqEvents ∧
    (entriesFor faqEvents).map (·.slug) = ["faq".toList, "faq-1".toList, "faq-1-1".toList] ∧
    (entriesFor faqEvents).map (·.seen) = [0, 1, 0] ∧ LeadsTo (entriesFor faqEvents) faqEvents (named faqEvents) := by
  have htext : ∀ t : Text, ∀ e ∈ [Event.text t], e.isOfHeading = false := by simp [Event.isOfHeading]
  have hcode : ∀ e ∈ [Event.text "F".toList, Event.code "aq".toList], e.isOfHeading = false := by decide
  have hflat : FlatHeadings faqEvents :=
    .heading 1 1 none none (htext "FAQ".toList) <| .other rfl <|
      .heading 2 2 none none hcode <| .heading 2 2 none none (htext "FAQ 1".toList) .nil
  exact ⟨hflat, by decide +kernel, by decide +kernel, toc_leads_to_headings.1 _ hflat⟩

end Pagewright.Markdown
