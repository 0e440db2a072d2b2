import Pagewright.Proofs.Markdown.Heading
import Pagewright.Proofs.Markdown.Outline

/-!
# The texts of headings

The slugs of a document depend on nothing but the texts of its headings (`map_slug_headings_congr`). Two things live
here:

* these texts for events and for blocks that are put together, whatever containers the blocks lie in
  (`Block.headingTexts_append`, `Container.headingTexts_block`);
* those that the reader of a document has met (`Outline.headingTexts`): opening and closing containers does not change
  them (`Outline.headingTexts_popTo`, `Outline.headingTexts_finishList`, `Outline.headingTexts_continueList`).
-/

namespace Pagewright.Markdown

open Slugger

variable {es fs : List Event} {s : Surroundings}

/-! ## Events -/

/-- The texts of the headings in events. -/
def headingTexts (es : List Event) : List Text := (foundFrom 0 none es).map (·.2.2)

theorem FlatHeadings.map_foundFrom (h : FlatHeadings es) (index : ℕ) :
    (foundFrom index none es).map (·.2.2) = headingTexts es := by
  -- the index goes up with the events, so it is not the same in the induction
  have hindex : ∀ i j, (foundFrom i none es).map (·.2.2) = (foundFrom j none es).map (·.2.2) := by
    induction h with
    | nil => exact fun _ _ => rfl
    | other he _ ih =>
      intro i j
      rw [foundFrom_cons he, foundFrom_cons he]
      exact ih _ _
    | heading level level' id id' hinner _ ih =>
      intro i j
      rw [foundFrom_heading _ _ _ _ hinner, foundFrom_heading _ _ _ _ hinner, List.map_cons, List.map_cons, ih]
  exact hindex index 0

theorem FlatHeadings.headingTexts_append (hes : FlatHeadings es) (hfs : FlatHeadings fs) :
    headingTexts (es ++ fs) = headingTexts es ++ headingTexts fs := by
  have hindex : ∀ i, (foundFrom i none (es ++ fs)).map (·.2.2) =
      (foundFrom i none es).map (·.2.2) ++ headingTexts fs := by
    induction hes with
    | nil => exact fun i => hfs.map_foundFrom i
    | other he _ ih =>
      intro i
      rw [List.cons_append, foundFrom_cons he, foundFrom_cons he]
      exact ih _
    | heading level level' id id' hinner _ ih =>
      intro i
      rw [List.cons_append, List.append_assoc, List.cons_append, foundFrom_heading _ _ _ _ hinner,
        foundFrom_heading _ _ _ _ hinner, List.map_cons, List.map_cons, ih, List.cons_append]
  exact hindex 0

theorem headingTexts_eq_nil (h : ∀ e ∈ es, e.isOfHeading = false) : headingTexts es = [] := by
  have hfound : foundFrom 0 none (es ++ []) = [] := foundFrom_append h
  rw [List.append_nil] at hfound
  rw [headingTexts, hfound]
  rfl

theorem FlatHeadings.headingTexts_around (h : FlatHeadings es) {x : Element}
    (hx : (Event.opens x).isOfHeading = false) : headingTexts (x.around es) = headingTexts es := by
  have hcloses : (Event.closes x).isOfHeading = false := by
    cases x <;> first | rfl | cases hx
  have hopens : headingTexts [.opens x] = [] := headingTexts_eq_nil (by simpa using hx)
  have hends : headingTexts [.closes x] = [] := headingTexts_eq_nil (by simpa using hcloses)
  have haround : x.around es = [.opens x] ++ (es ++ [.closes x]) := rfl
  have hflat : FlatHeadings [.closes x] := .other hcloses .nil
  rw [haround, (FlatHeadings.other hx .nil).headingTexts_append (h.append hflat), h.headingTexts_append hflat, hopens,
    hends, List.nil_append, List.append_nil]

/-- The slugs of headings are a matter of their texts. -/
theorem map_slug_headings_congr (h : headingTexts es = headingTexts fs) :
    (headings es).map (·.slug) = (headings fs).map (·.slug) := by
  rw [headings_eq, headings_eq]
  exact map_slug_assign_congr .empty h

/-! ## Blocks -/

namespace Block

/-- The texts of the headings in blocks. -/
def headingTexts (s : Surroundings) (blocks : List Block) : List Text :=
  Markdown.headingTexts (eventsOfAll s false blocks)

theorem headingTexts_nil (s : Surroundings) : headingTexts s [] = [] := by
  rw [headingTexts, eventsOfAll]
  rfl

theorem eventsOfAll_append (s : Surroundings) (tight : Bool) (front back : List Block) :
    eventsOfAll s tight (front ++ back) = eventsOfAll s tight front ++ eventsOfAll s tight back := by
  induction front with
  | nil => rw [List.nil_append, eventsOfAll, List.nil_append]
  | cons b front ih => rw [List.cons_append, eventsOfAll, eventsOfAll, ih, List.append_assoc]

theorem headingTexts_append (s : Surroundings) (front back : List Block) :
    headingTexts s (front ++ back) = headingTexts s front ++ headingTexts s back := by
  rw [headingTexts, eventsOfAll_append]
  exact (flatHeadings_eventsOfAll _ _ _).headingTexts_append (flatHeadings_eventsOfAll _ _ _)

theorem headingTexts_singleton (s : Surroundings) (b : Block) :
    headingTexts s [b] = Markdown.headingTexts (b.events s false) := by
  rw [headingTexts, eventsOfAll, eventsOfAll, List.append_nil]

mutual

/-- Whether a list is tight matters to its paragraphs only. -/
theorem headingTexts_events (s : Surroundings) (tight : Bool) (b : Block) :
    Markdown.headingTexts (b.events s tight) = Markdown.headingTexts (b.events s false) := by
  cases b with
  | paragraph source =>
    -- tight or not, it has no heading
    have hnone : ∀ t, Markdown.headingTexts ((Block.paragraph source).events s t) = [] := by
      intro t
      refine headingTexts_eq_nil ?_
      rw [events]
      split
      · exact not_isOfHeading_textEvents s source
      · exact forall_around rfl (not_isOfHeading_textEvents s source)
    rw [hnone, hnone]
  | item blocks =>
    rw [events, events, (flatHeadings_eventsOfAll s tight blocks).headingTexts_around rfl,
      (flatHeadings_eventsOfAll s false blocks).headingTexts_around rfl]
    exact headingTexts_eventsOfAll s tight blocks
  | heading | rule | code | html | table | quote | list => rw [events, events]

theorem headingTexts_eventsOfAll (s : Surroundings) (tight : Bool) (blocks : List Block) :
    Markdown.headingTexts (eventsOfAll s tight blocks) = Markdown.headingTexts (eventsOfAll s false blocks) := by
  cases blocks with
  | nil => rw [eventsOfAll, eventsOfAll]
  | cons b rest =>
    rw [eventsOfAll, eventsOfAll,
      (flatHeadings_events s tight b).headingTexts_append (flatHeadings_eventsOfAll s tight rest),
      (flatHeadings_events s false b).headingTexts_append (flatHeadings_eventsOfAll s false rest),
      headingTexts_events s tight b, headingTexts_eventsOfAll s tight rest]

end

theorem headingTexts_paragraph (s : Surroundings) (source : List Line) : headingTexts s [.paragraph source] = [] := by
  rw [headingTexts_singleton, events]
  exact headingTexts_eq_nil (forall_around rfl (not_isOfHeading_textEvents s source))

theorem headingTexts_code (s : Surroundings) (info body : Text) : headingTexts s [.code info body] = [] := by
  rw [headingTexts_singleton, events]
  exact headingTexts_eq_nil (forall_around rfl (by simp [Event.isOfHeading]))

end Block

/-- The headings of a container are those of the blocks in it. -/
theorem Container.headingTexts_block (x : Container) (s : Surroundings) (blocks : List Block) :
    Block.headingTexts s [x.block blocks] = Block.headingTexts s blocks := by
  rw [Block.headingTexts_singleton]
  cases x with
  | quote =>
    rw [block, Block.events, (Block.flatHeadings_eventsOfAll s false blocks).headingTexts_around rfl]
    rfl
  | list marker tight =>
    rw [block, Block.events, (Block.flatHeadings_eventsOfAll s tight blocks).headingTexts_around rfl]
    exact Block.headingTexts_eventsOfAll s tight blocks
  | item indent =>
    rw [block, Block.events, (Block.flatHeadings_eventsOfAll s false blocks).headingTexts_around rfl]
    rfl

/-! ## Outlines -/

namespace Outline

variable {o : Outline}

/-- The texts of the headings so far. -/
def headingTexts (s : Surroundings) (o : Outline) : List Text :=
  Block.headingTexts s o.blocks.reverse ++ o.frames.reverse.flatMap fun f => Block.headingTexts s f.blocks.reverse

theorem headingTexts_of_closed (h : o.frames = []) : o.headingTexts s = Block.headingTexts s o.blocks.reverse := by
  rw [headingTexts, h]
  exact List.append_nil _

theorem headingTexts_append (b : Block) :
    (o.append b).headingTexts s = o.headingTexts s ++ Block.headingTexts s [b] := by
  obtain ⟨_ | ⟨f, outer⟩, blocks, lastBlank, emptyItem, definitions⟩ := o
  · simp [headingTexts, append, Block.headingTexts_append]
  · simp [headingTexts, append, Block.headingTexts_append]

theorem headingTexts_pop (o : Outline) : o.pop.headingTexts s = o.headingTexts s := by
  obtain ⟨_ | ⟨f, outer⟩, blocks, lastBlank, emptyItem, definitions⟩ := o
  · rfl
  · -- the blocks of the frame go, as one block, to the end of what is around it
    have hclosed : (append ⟨outer, blocks, lastBlank, emptyItem, definitions⟩
        (f.container.block f.blocks.reverse)).headingTexts s =
          headingTexts s ⟨f :: outer, blocks, lastBlank, emptyItem, definitions⟩ := by
      rw [headingTexts_append, Container.headingTexts_block]
      simp [headingTexts]
    unfold pop
    dsimp only
    split <;> exact hclosed

theorem headingTexts_popTo (n : ℕ) (o : Outline) : (o.popTo n).headingTexts s = o.headingTexts s := by
  have hrepeat : ∀ k, (Nat.repeat pop k o).headingTexts s = o.headingTexts s := by
    intro k
    induction k with
    | zero => rfl
    | succ k ih => rw [Nat.repeat, headingTexts_pop, ih]
  exact hrepeat _

theorem headingTexts_finishEmptyItem (o : Outline) : o.finishEmptyItem.headingTexts s = o.headingTexts s := by
  unfold finishEmptyItem
  dsimp only
  split
  · split
    · exact headingTexts_pop o
    · rfl
  · rfl

theorem headingTexts_loosenAround (o : Outline) : o.loosenAround.headingTexts s = o.headingTexts s := by
  obtain ⟨_ | ⟨item, _ | ⟨⟨_ | _ | _, items⟩, outer⟩⟩, blocks, _ | _, emptyItem, definitions⟩ := o
  all_goals first | rfl | simp [loosenAround, headingTexts]

theorem headingTexts_finishList (o : Outline) : o.finishList.headingTexts s = o.headingTexts s := by
  unfold finishList
  dsimp only
  split
  · rw [headingTexts_loosenAround, headingTexts_pop, headingTexts_finishEmptyItem]
  · rw [headingTexts_loosenAround, headingTexts_finishEmptyItem]

theorem headingTexts_push (c : Container) (o : Outline) : (o.push c).headingTexts s = o.headingTexts s := by
  simp [headingTexts, push, Block.headingTexts_nil]

theorem headingTexts_continueList (marker : ListMarker) (o : Outline) :
    (o.continueList marker).headingTexts s = o.headingTexts s := by
  have hpush : ∀ p : Outline, (p.pushList marker).headingTexts s = p.headingTexts s := fun p => headingTexts_push _ p
  rw [← headingTexts_finishEmptyItem o]
  unfold continueList
  generalize o.finishEmptyItem = p
  obtain ⟨_ | ⟨⟨_ | ⟨own, tight⟩ | _, items⟩, outer⟩, blocks, lastBlank, emptyItem, definitions⟩ := p
  · exact hpush _
  · exact (hpush _).trans (headingTexts_finishList _)
  · dsimp only
    split
    · simp [headingTexts]
    · exact (hpush _).trans (headingTexts_finishList _)
  · exact (hpush _).trans (headingTexts_finishList _)

theorem headingTexts_blankLine (o : Outline) : o.blankLine.headingTexts s = o.headingTexts s := by
  obtain ⟨_ | ⟨⟨_ | _ | _, items⟩, outer⟩, blocks, lastBlank, emptyItem, definitions⟩ := o
  all_goals first | rfl | simp [blankLine, headingTexts]

end Outline

end Pagewright.Markdown
