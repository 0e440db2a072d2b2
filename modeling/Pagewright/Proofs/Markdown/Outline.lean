import Mathlib.Data.List.Infix
import Pagewright.Markdown.Outline
import Pagewright.Proofs.Markdown.Line

/-!
# Reading a document block by block

`Outline.read` takes the next block off a list of lines. Three things live here:

* what a reader leaves is the end of the lines that it got (`Outline.read_suffix`), so the bound on the number of
  blocks does not matter (`Outline.readAll_eq_finish`);
* runs of the reader (`Outline.Reaches`), which can be cut and put together (`Outline.Reaches.finish_eq`);
* the reader never looks at finished blocks: with more of them it does the same (`Outline.after_finish`).
-/

namespace Pagewright.Markdown

variable {containers : List Container} {l : Line} {ls rest : List Line}

/-! ## What is left -/

theorem indentedLines_suffix (containers : List Container) (ls : List Line) :
    (indentedLines containers ls).2 <:+ ls := by
  induction ls with
  | nil => exact List.suffix_rfl
  | cons l rest ih =>
    rw [indentedLines]
    dsimp only
    split
    · exact ih.trans (List.suffix_cons l rest)
    · exact List.suffix_rfl

theorem fencedLines_suffix (containers : List Container) (fence : Char) (length indent : ℕ) (ls : List Line) :
    (fencedLines containers fence length indent ls).2 <:+ ls := by
  induction ls with
  | nil => exact List.suffix_rfl
  | cons l rest ih =>
    rw [fencedLines]
    dsimp only
    split
    · exact List.suffix_rfl
    · split
      · exact List.suffix_cons l rest
      · exact ih.trans (List.suffix_cons l rest)

theorem htmlLines_suffix (containers : List Container) (start : HtmlBlockStart) (written : Text) (ls : List Line) :
    (htmlLines containers start written ls).2 <:+ ls := by
  induction ls generalizing written with
  | nil => exact List.suffix_rfl
  | cons l rest ih =>
    rw [htmlLines]
    cases start with
    | untilText close =>
      dsimp only
      split
      · exact List.suffix_rfl
      · exact (ih _).trans (List.suffix_cons l rest)
    | untilBlank =>
      dsimp only
      split
      · exact List.suffix_rfl
      · exact (ih _).trans (List.suffix_cons l rest)

theorem paragraphLines_suffix (containers : List Container) (ls : List Line) :
    (paragraphLines containers ls).2.2 <:+ ls := by
  induction ls with
  | nil => exact List.suffix_rfl
  | cons l rest ih =>
    rw [paragraphLines]
    dsimp only
    split
    · exact List.suffix_cons l rest
    · split
      · exact List.suffix_rfl
      · exact ih.trans (List.suffix_cons l rest)

theorem tableRows_suffix (containers : List Container) (columns : ℕ) (ls : List Line) :
    (tableRows containers columns ls).2 <:+ ls := by
  induction ls with
  | nil => exact List.suffix_rfl
  | cons l rest ih =>
    rw [tableRows]
    dsimp only
    split
    · exact List.suffix_rfl
    · split
      · exact ih.trans (List.suffix_cons l rest)
      · exact ih.trans (List.suffix_cons l rest)

theorem readDefinition?_suffix {t label : Text} {target : Target} {left : List Line}
    (h : readDefinition? containers t rest = some (label, target, left)) : left <:+ rest := by
  unfold readDefinition? at h
  split at h
  · dsimp only at h
    split at h
    · obtain ⟨-, -, rfl⟩ := by simpa using h
      exact List.drop_suffix _ _
    · cases h
  · cases h

theorem readLeaf_suffix (containers : List Container) (pending indent : ℕ) (c : LineCursor) (l : Line)
    (rest : List Line) : (readLeaf containers pending indent c l rest).2 <:+ rest := by
  unfold readLeaf
  dsimp only
  split
  · exact htmlLines_suffix _ _ _ _
  · split
    · exact List.suffix_rfl
    · split
      · exact List.suffix_rfl
      · exact fencedLines_suffix _ _ _ _ _
      · split
        · exact (tableRows_suffix _ _ _).trans (List.drop_suffix _ _)
        · split
          · exact paragraphLines_suffix _ _
          · exact paragraphLines_suffix _ _

namespace Outline

variable {o o' : Outline} {before : List Block}

theorem readOwn_suffix (o : Outline) (c : LineCursor) (l : Line) (rest : List Line) :
    (o.readOwn c l rest).2 <:+ rest := by
  unfold readOwn
  dsimp only
  split
  · exact List.suffix_rfl
  · split
    · exact indentedLines_suffix _ _
    · split
      · next h => exact readDefinition?_suffix h
      · exact readLeaf_suffix _ _ _ _ _ _

theorem read_suffix (o : Outline) (l : Line) (rest : List Line) : (o.read l rest).2 <:+ rest := by
  unfold read
  dsimp only
  split
  · exact readOwn_suffix _ _ _ _
  · exact List.suffix_rfl

theorem popTo_eq_self {n : ℕ} (h : o.frames.length ≤ n) : o.popTo n = o := by
  rw [popTo, Nat.sub_eq_zero_of_le h]
  rfl

theorem lastBlank_loosenAround (o : Outline) : o.loosenAround.lastBlank = false := by
  obtain ⟨_ | ⟨item, _ | ⟨⟨_ | _ | _, items⟩, outer⟩⟩, blocks, _ | _, emptyItem, definitions⟩ := o <;> rfl

theorem lastBlank_finishList (o : Outline) : o.finishList.lastBlank = false := by
  unfold finishList
  dsimp only
  split <;> exact lastBlank_loosenAround _

theorem length_frames_pop (o : Outline) : o.pop.frames.length = o.frames.length - 1 := by
  obtain ⟨_ | ⟨⟨_ | ⟨marker, _ | _⟩ | _, items⟩, _ | ⟨f, outer⟩⟩, blocks, lastBlank, emptyItem, definitions⟩ := o <;>
    rfl

theorem length_frames_popTo_le (n : ℕ) (o : Outline) : (o.popTo n).frames.length ≤ n := by
  have hrepeat : ∀ k, (Nat.repeat pop k o).frames.length = o.frames.length - k := by
    intro k
    induction k with
    | zero => rfl
    | succ k ih => rw [Nat.repeat, length_frames_pop, ih, Nat.sub_sub]
  rw [popTo, hrepeat]
  omega

/-- The parts that the reading of a line consists of, where it is not the line of an empty item. -/
theorem read_eq {n : ℕ} {c own : LineCursor} {opened : Outline}
    (henter : Container.enterAll o.containers (.ofText l.text) = (n, c))
    (hopen : openContainers (l.text.length + 1) (o.popTo n) c = (opened, some own)) (rest : List Line) :
    o.read l rest = opened.readOwn own l rest := by
  rw [Outline.read, henter]
  dsimp only
  rw [hopen]

/-- A line that begins at the margin, and no item of a list, closes the list that it meets. So nothing matters of the
open containers but what is left of them then. -/
theorem read_congr_of_finishList {o' : Outline} {c : Char} {r : Text} (hl : l.text = c :: r) (hc : isSpace c = false)
    (hitem : listItem? (.ofText l.text) 0 = none) {n n' : ℕ}
    (henter : Container.enterAll o.containers (.ofText l.text) = (n, .ofText l.text))
    (henter' : Container.enterAll o'.containers (.ofText l.text) = (n', .ofText l.text))
    (hfinish : (o.popTo n).finishList = (o'.popTo n').finishList) (rest : List Line) :
    o.read l rest = o'.read l rest := by
  have htake : (LineCursor.ofText l.text).takeUpTo 4 = (0, .ofText l.text) := by
    rw [hl, LineCursor.takeUpTo, LineCursor.ofText, LineCursor.take_flush hc]
  have hblank : isBlankText (LineCursor.ofText l.text).rest = false := by
    rw [hl]
    simp [LineCursor.ofText, isBlankText, hc]
  rw [Outline.read, Outline.read, henter, henter']
  dsimp only
  rw [openContainers, openContainers, htake]
  dsimp only
  rw [if_neg (by decide), if_neg (by decide), hitem]
  dsimp only
  -- a quote that begins and a block of its own close the list in the same way
  cases (LineCursor.ofText l.text).quoteMark? with
  | some behind =>
    dsimp only
    rw [hfinish]
  | none =>
    dsimp only
    rw [readOwn, readOwn, hblank, if_neg Bool.false_ne_true, if_neg Bool.false_ne_true, hfinish]

/-- What is known of a document at its end. -/
def finish (o : Outline) (ls : List Line) : Outline := o.readAll ls.length ls

/-- The number of blocks that are read is bounded by the number of lines. -/
theorem readAll_eq_finish {n : ℕ} (h : ls.length ≤ n) (o : Outline) : o.readAll n ls = o.finish ls := by
  -- a block may take several lines, so fewer lines may be left than the bound goes down
  induction n using Nat.strong_induction_on generalizing o ls with
  | _ n ih =>
  cases n with
  | zero =>
    obtain rfl := List.length_eq_zero_iff.1 (Nat.le_zero.1 h)
    rfl
  | succ n =>
    cases ls with
    | nil => rfl
    | cons l rest =>
      have hrest : rest.length ≤ n := Nat.le_of_succ_le_succ h
      have hleft : (o.read l rest).2.length ≤ rest.length := (o.read_suffix l rest).length_le
      calc o.readAll (n + 1) (l :: rest)
          = (o.read l rest).1.readAll n (o.read l rest).2 := rfl
        _ = (o.read l rest).1.finish (o.read l rest).2 := ih n (Nat.lt_succ_self n) (hleft.trans hrest) _
        _ = (o.read l rest).1.readAll rest.length (o.read l rest).2 :=
          (ih rest.length (Nat.lt_succ_of_le hrest) hleft _).symm
        _ = o.finish (l :: rest) := rfl

theorem finish_cons (o : Outline) (l : Line) (rest : List Line) :
    o.finish (l :: rest) = (o.read l rest).1.finish (o.read l rest).2 :=
  readAll_eq_finish (o.read_suffix l rest).length_le _

/-! ## Runs -/

/-- The reader gets from one outline above lines to another one above the lines that are left. -/
inductive Reaches : Outline → List Line → Outline → List Line → Prop
  | refl (o : Outline) (ls : List Line) : Reaches o ls o ls
  | step {o o' : Outline} {l : Line} {rest left : List Line} :
    Reaches (o.read l rest).1 (o.read l rest).2 o' left → Reaches o (l :: rest) o' left

theorem Reaches.trans {o₁ o₂ o₃ : Outline} {ls₁ ls₂ ls₃ : List Line} (h : Reaches o₁ ls₁ o₂ ls₂)
    (h' : Reaches o₂ ls₂ o₃ ls₃) : Reaches o₁ ls₁ o₃ ls₃ := by
  induction h with
  | refl => exact h'
  | step _ ih => exact .step (ih h')

/-- A run does not change what is known in the end. -/
theorem Reaches.finish_eq {left : List Line} (h : Reaches o ls o' left) : o.finish ls = o'.finish left := by
  induction h with
  | refl => rfl
  | step _ ih => rw [finish_cons, ih]

/-! ## Finished blocks -/

/-- What is known at the start of a document, and definitions. -/
def startWith (definitions : List (Text × Target)) : Outline := ⟨[], [], false, false, definitions⟩

/-- An outline with finished blocks before its own. -/
def after (o : Outline) (before : List Block) : Outline := { o with blocks := o.blocks ++ before }

@[simp] theorem after_containers : (o.after before).containers = o.containers := rfl

theorem after_append (b : Block) : (o.after before).append b = (o.append b).after before := by
  obtain ⟨_ | ⟨f, outer⟩, blocks, lastBlank, emptyItem, definitions⟩ := o <;> rfl

theorem after_push (c : Container) : (o.after before).push c = (o.push c).after before := rfl

theorem after_pop : (o.after before).pop = o.pop.after before := by
  obtain ⟨_ | ⟨⟨_ | ⟨marker, _ | _⟩ | _, items⟩, _ | ⟨f, outer⟩⟩, blocks, lastBlank, emptyItem, definitions⟩ := o <;>
    rfl

theorem after_popTo (n : ℕ) : (o.after before).popTo n = (o.popTo n).after before := by
  have hrepeat : ∀ (k : ℕ) (p : Outline), Nat.repeat pop k (p.after before) = (Nat.repeat pop k p).after before := by
    intro k p
    induction k with
    | zero => rfl
    | succ k ih => rw [Nat.repeat, ih, after_pop, Nat.repeat]
  exact hrepeat _ o

theorem after_finishEmptyItem : (o.after before).finishEmptyItem = o.finishEmptyItem.after before := by
  obtain ⟨_ | ⟨⟨_ | _ | _, items⟩, _ | ⟨f, outer⟩⟩, blocks, _ | _, _ | _, definitions⟩ := o <;> rfl

theorem after_loosenAround : (o.after before).loosenAround = o.loosenAround.after before := by
  obtain ⟨_ | ⟨item, _ | ⟨⟨_ | _ | _, items⟩, outer⟩⟩, blocks, _ | _, emptyItem, definitions⟩ := o <;> rfl

theorem after_finishList : (o.after before).finishList = o.finishList.after before := by
  unfold finishList
  rw [after_finishEmptyItem]
  -- no container, a quote, a list, an item
  obtain ⟨_ | ⟨⟨_ | _ | _, items⟩, outer⟩, blocks, lastBlank, emptyItem, definitions⟩ := o.finishEmptyItem
  · exact after_loosenAround
  · exact after_loosenAround
  · exact (congrArg loosenAround after_pop).trans after_loosenAround
  · exact after_loosenAround

theorem after_continueList (marker : ListMarker) :
    (o.after before).continueList marker = (o.continueList marker).after before := by
  unfold continueList
  rw [after_finishEmptyItem]
  obtain ⟨_ | ⟨⟨_ | ⟨own, tight⟩ | _, items⟩, outer⟩, blocks, lastBlank, emptyItem, definitions⟩ := o.finishEmptyItem
  · rfl
  · exact congrArg (pushList · marker) after_finishList
  · show (if own.delimiter = marker.delimiter then _ else (after _ before).finishList.pushList marker) =
      (if own.delimiter = marker.delimiter then _ else _ : Outline).after before
    split
    · rfl
    · exact congrArg (pushList · marker) after_finishList
  · exact congrArg (pushList · marker) after_finishList

theorem after_openContainers (fuel : ℕ) (o : Outline) (c : LineCursor) :
    openContainers fuel (o.after before) c =
      ((openContainers fuel o c).1.after before, (openContainers fuel o c).2) := by
  induction fuel generalizing o c with
  | zero => rfl
  | succ fuel ih =>
    rw [openContainers, openContainers]
    dsimp only
    split
    · rfl
    · split
      · rw [after_continueList, after_push]
        split
        · rfl
        · exact ih _ _
      · split
        · rw [after_finishList, after_push]
          exact ih _ _
        · rfl

theorem after_blankLine : (o.after before).blankLine = o.blankLine.after before := by
  obtain ⟨_ | ⟨⟨_ | _ | _, items⟩, outer⟩, blocks, lastBlank, emptyItem, definitions⟩ := o <;> rfl

theorem after_readOwn (o : Outline) (c : LineCursor) (l : Line) (rest : List Line) :
    (o.after before).readOwn c l rest = ((o.readOwn c l rest).1.after before, (o.readOwn c l rest).2) := by
  unfold readOwn
  rw [after_blankLine, after_finishList]
  dsimp only [after_containers]
  split
  · rfl
  · split
    · rw [after_append]
      rfl
    · split
      · rfl
      · rw [after_append]

theorem after_read (o : Outline) (l : Line) (rest : List Line) :
    (o.after before).read l rest = ((o.read l rest).1.after before, (o.read l rest).2) := by
  unfold read
  dsimp only [after_containers]
  rw [after_popTo, after_openContainers]
  obtain ⟨opened, _ | own⟩ := openContainers (l.text.length + 1)
    (o.popTo (Container.enterAll o.containers (.ofText l.text)).1) (Container.enterAll o.containers (.ofText l.text)).2
  · rfl
  · exact after_readOwn opened own l rest

/-- The reader never looks at the finished blocks. -/
theorem after_finish (o : Outline) (ls : List Line) : (o.after before).finish ls = (o.finish ls).after before := by
  have hall : ∀ (n : ℕ) (p : Outline) (ls : List Line),
      (p.after before).readAll n ls = (p.readAll n ls).after before := by
    intro n
    induction n with
    | zero => intro p ls; rfl
    | succ n ih =>
      intro p ls
      cases ls with
      | nil => rfl
      | cons l rest =>
        show ((p.after before).read l rest).1.readAll n ((p.after before).read l rest).2 = _
        rw [after_read, ih]
        rfl
  exact hall _ o ls

end Outline
end Pagewright.Markdown
