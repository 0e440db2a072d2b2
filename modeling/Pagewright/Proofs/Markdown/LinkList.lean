import Pagewright.Proofs.Markdown.HeadingText
import Pagewright.Proofs.Markdown.LinkItem

/-!
# A list of links in a document

Items that begin with links are read as lists, as paragraphs and as code, which have no headings. Three things live
here:

* what the reader knows where nothing but lists are open, as an invariant that each of its functions keeps (`Listing`);
* so the reader gets behind a list of links, and the headings so far are what they were (`Listing.exists_reaches`);
* what begins at the margin there, and is no item itself, is read as if there had been no list
  (`Listing.exists_finish_eq`).
-/

namespace Pagewright.Markdown

open Outline

variable {link : Text} {l : Line} {ls rest tail : List Line}

/-! ## Containers that begin on a line -/

/-- No container begins with a link. -/
theorem openContainers_link (hlink : OpensLink link) (fuel : ℕ) (o : Outline) (width : ℕ) :
    openContainers fuel o ⟨link, width, 0⟩ = (o, some ⟨link, width, 0⟩) := by
  obtain ⟨label, behind, rfl, -⟩ := hlink
  cases fuel with
  | zero => rfl
  | succ fuel =>
    rw [openContainers, LineCursor.takeUpTo, LineCursor.take_flush rfl]
    rfl

/-- What lies in an item that begins with a link is indented as the link is. -/
theorem openContainers_item (hlink : OpensLink link) {k : ℕ} (hk : k < 4) (fuel : ℕ) (o : Outline) (width : ℕ) :
    openContainers (fuel + 1) o ⟨List.replicate k ' ' ++ '-' :: ' ' :: link, width, 0⟩ =
      ((o.continueList ⟨'-', 0⟩).push (.item (k + 2)), some ⟨link, width + k + 2, 0⟩) := by
  obtain ⟨label, behind, rfl, hrest⟩ := hlink
  rw [openContainers, LineCursor.takeUpTo, LineCursor.take_spaces isSpace_dash]
  dsimp only
  have hnone : k - 4 = 0 := by omega
  have hindent : 4 - (4 - k) = k := by omega
  rw [hnone, hindent, if_neg (by omega), min_eq_right (by omega), List.replicate_zero, List.nil_append,
    listItem?_link]
  dsimp only
  rw [isBlankText_cons rfl, if_neg Bool.false_ne_true]
  exact openContainers_link ⟨label, behind, rfl, hrest⟩ fuel _ _

/-- No container begins on a blank line. -/
theorem openContainers_blank {cursor : LineCursor} (hcursor : IsBlankLine cursor.rest) (fuel : ℕ) (o : Outline) :
    openContainers fuel o cursor = (o, some cursor) := by
  cases fuel with
  | zero => rfl
  | succ fuel =>
    have hown : IsBlankLine (cursor.takeUpTo 4).2.rest := hcursor.of_suffix (LineCursor.take_suffix _ 4)
    have hquote : (cursor.takeUpTo 4).2.quoteMark? = none := by
      unfold LineCursor.quoteMark?
      split
      · next h => simpa using hown '>' (by rw [h]; exact List.mem_cons_self)
      · rfl
    rw [openContainers]
    dsimp only
    rw [listItem?_blank hown, hquote]
    exact ite_self _

/-! ## Outlines within lists -/

/-- Open lists and their items, the innermost first; the flag says that the innermost one is a list. -/
inductive Nested : Bool → List Frame → Prop
  | nil : Nested false []
  | list {marker : ListMarker} {tight : Bool} {items : List Block} {outer : List Frame} :
    Nested false outer → Nested true (⟨.list marker tight, items⟩ :: outer)
  | item {indent : ℕ} {blocks : List Block} {outer : List Frame} (hindent : 0 < indent) :
    Nested true outer → Nested false (⟨.item indent, blocks⟩ :: outer)

theorem Nested.quote_notMem {within : Bool} {frames : List Frame} (h : Nested within frames) :
    .quote ∉ frames.map (·.container) := by
  induction h with
  | nil => exact List.not_mem_nil
  | list _ ih => simpa using ih
  | item _ _ ih => simpa using ih

/-- What lines at the margin meet of the open lists: nothing, one list, or one list with an item in it. -/
theorem Nested.outermost {within : Bool} {frames : List Frame} (h : Nested within frames) :
    (within = false ∧ frames = []) ∨
    (within = true ∧ ∃ marker tight items, frames = [⟨.list marker tight, items⟩]) ∨
    ∃ marker tight indent inner, 0 < indent ∧
      (frames.map (·.container)).reverse = .list marker tight :: .item indent :: inner := by
  induction h with
  | nil => exact Or.inl ⟨rfl, rfl⟩
  | @list marker tight items outer _ ih =>
    rcases ih with ⟨-, rfl⟩ | ⟨hwithin, -⟩ | ⟨marker', tight', indent, inner, hindent, hcontainers⟩
    · exact Or.inr (Or.inl ⟨rfl, marker, tight, items, rfl⟩)
    · cases hwithin
    · exact Or.inr (Or.inr ⟨marker', tight', indent, inner ++ [.list marker tight], hindent, by simp [hcontainers]⟩)
  | @item indent blocks outer hindent _ ih =>
    rcases ih with ⟨hwithin, -⟩ | ⟨-, marker, tight, items, rfl⟩ | ⟨marker, tight, indent', inner, hindent', houter⟩
    · cases hwithin
    · exact Or.inr (Or.inr ⟨marker, tight, indent, [], hindent, rfl⟩)
    · exact Or.inr (Or.inr ⟨marker, tight, indent', inner ++ [.item indent], hindent', by simp [houter]⟩)

/-- An outline where nothing but lists are open, with some definitions and with headings of some texts so far. -/
structure Listing (definitions : List (Text × Target)) (texts : Surroundings → List Text) (within : Bool)
    (o : Outline) : Prop where
  frames : Nested within o.frames
  texts_eq : ∀ s, o.headingTexts s = texts s
  definitions : o.definitions = definitions
  emptyItem : o.emptyItem = false

namespace Listing

variable {definitions : List (Text × Target)} {texts : Surroundings → List Text} {within : Bool} {o : Outline}

theorem quote_notMem (h : Listing definitions texts within o) : .quote ∉ o.containers :=
  List.mem_reverse.not.2 h.frames.quote_notMem

/-- A block without headings changes nothing that matters. -/
theorem append (h : Listing definitions texts within o) {b : Block} (hb : ∀ s, Block.headingTexts s [b] = []) :
    Listing definitions texts within (o.append b) := by
  have htexts : ∀ s, (o.append b).headingTexts s = texts s := fun s => by
    rw [headingTexts_append, hb, List.append_nil, h.texts_eq]
  obtain ⟨frames, blocks, lastBlank, emptyItem, defs⟩ := o
  cases h.frames with
  | nil => exact ⟨.nil, htexts, h.definitions, h.emptyItem⟩
  | list houter => exact ⟨.list houter, htexts, h.definitions, h.emptyItem⟩
  | item hindent houter => exact ⟨.item hindent houter, htexts, h.definitions, h.emptyItem⟩

/-- Closing a list leads to what it lies in, and closing an item to its list. -/
theorem pop (h : Listing definitions texts within o) (hframes : o.frames ≠ []) :
    Listing definitions texts (!within) o.pop := by
  have htexts : ∀ s, o.pop.headingTexts s = texts s := fun s => by rw [headingTexts_pop, h.texts_eq]
  obtain ⟨frames, blocks, lastBlank, emptyItem, defs⟩ := o
  cases h.frames with
  | nil => exact absurd rfl hframes
  | @list marker tight items outer houter =>
    cases houter with
    | nil => cases tight <;> exact ⟨.nil, htexts, h.definitions, by first | rfl | exact h.emptyItem⟩
    | item hindent houter =>
      cases tight <;> exact ⟨.item hindent houter, htexts, h.definitions, by first | rfl | exact h.emptyItem⟩
  | item hindent houter =>
    cases houter with
    | list houter => exact ⟨.list houter, htexts, h.definitions, h.emptyItem⟩

theorem exists_popTo (h : Listing definitions texts within o) (n : ℕ) :
    ∃ within', Listing definitions texts within' (o.popTo n) := by
  -- lists and items take turns, so it is not the same flag after each step
  have hrepeat : ∀ k, ∃ within', Listing definitions texts within' (Nat.repeat Outline.pop k o) := by
    intro k
    induction k with
    | zero => exact ⟨within, h⟩
    | succ k ih =>
      obtain ⟨within', hk⟩ := ih
      by_cases hframes : (Nat.repeat Outline.pop k o).frames = []
      · have hnone : (Nat.repeat Outline.pop k o).pop = Nat.repeat Outline.pop k o := by
          rw [Outline.pop, hframes]
        exact ⟨within', by rwa [Nat.repeat, hnone]⟩
      · exact ⟨_, hk.pop hframes⟩
  exact hrepeat _

theorem finishEmptyItem_eq (h : Listing definitions texts within o) : o.finishEmptyItem = o := by
  obtain ⟨frames, blocks, lastBlank, emptyItem, defs⟩ := o
  obtain rfl : emptyItem = false := h.emptyItem
  unfold finishEmptyItem
  split <;> rfl

theorem loosenAround (h : Listing definitions texts within o) : Listing definitions texts within o.loosenAround := by
  have htexts : ∀ s, o.loosenAround.headingTexts s = texts s := fun s => by rw [headingTexts_loosenAround, h.texts_eq]
  obtain ⟨frames, blocks, lastBlank, emptyItem, defs⟩ := o
  cases lastBlank with
  | false => exact h
  | true =>
    cases h.frames with
    | nil => exact ⟨.nil, htexts, h.definitions, h.emptyItem⟩
    | list houter =>
      cases houter with
      | nil => exact ⟨.list .nil, htexts, h.definitions, h.emptyItem⟩
      | item hindent houter => exact ⟨.list (.item hindent houter), htexts, h.definitions, h.emptyItem⟩
    | item hindent houter =>
      cases houter with
      | list houter => exact ⟨.item hindent (.list houter), htexts, h.definitions, h.emptyItem⟩

/-- Behind a list that is closed, no list is the innermost container. -/
theorem finishList (h : Listing definitions texts within o) : Listing definitions texts false o.finishList := by
  unfold Outline.finishList
  rw [h.finishEmptyItem_eq]
  obtain ⟨frames, blocks, lastBlank, emptyItem, defs⟩ := o
  cases h.frames with
  | nil => exact h.loosenAround
  | list houter => exact (h.pop (List.cons_ne_nil _ _)).loosenAround
  | item hindent houter => exact h.loosenAround

theorem pushList (h : Listing definitions texts false o) (marker : ListMarker) :
    Listing definitions texts true (o.pushList marker) :=
  ⟨.list h.frames, fun s => (headingTexts_push _ _).trans (h.texts_eq s), h.definitions, h.emptyItem⟩

theorem continueList (h : Listing definitions texts within o) (marker : ListMarker) :
    Listing definitions texts true (o.continueList marker) := by
  have htexts : ∀ s, (o.continueList marker).headingTexts s = texts s := fun s => by
    rw [headingTexts_continueList, h.texts_eq]
  revert htexts
  unfold Outline.continueList
  rw [h.finishEmptyItem_eq]
  obtain ⟨frames, blocks, lastBlank, emptyItem, defs⟩ := o
  cases h.frames with
  | nil => exact fun _ => h.pushList marker
  | list houter =>
    dsimp only
    split
    · exact fun htexts => ⟨.list houter, htexts, h.definitions, h.emptyItem⟩
    · exact fun _ => h.finishList.pushList marker
  | item hindent houter => exact fun _ => h.finishList.pushList marker

theorem pushItem (h : Listing definitions texts true o) {indent : ℕ} (hindent : 0 < indent) :
    Listing definitions texts false (o.push (.item indent)) :=
  ⟨.item hindent h.frames, fun s => (headingTexts_push _ _).trans (h.texts_eq s), h.definitions, h.emptyItem⟩

theorem blankLine (h : Listing definitions texts within o) : Listing definitions texts within o.blankLine := by
  have htexts : ∀ s, o.blankLine.headingTexts s = texts s := fun s => by rw [headingTexts_blankLine, h.texts_eq]
  obtain ⟨frames, blocks, lastBlank, emptyItem, defs⟩ := o
  obtain rfl : emptyItem = false := h.emptyItem
  cases h.frames with
  | nil => exact ⟨.nil, htexts, h.definitions, rfl⟩
  | list houter => exact ⟨.list houter, htexts, h.definitions, rfl⟩
  | item hindent houter => exact ⟨.item hindent houter, htexts, h.definitions, rfl⟩

/-- Where at most one list is open, nothing is left but finished blocks once it is closed. -/
theorem exists_finishList_eq (h : Listing definitions texts within o) (hframes : o.frames.length ≤ 1) :
    ∃ before, (∀ s, Block.headingTexts s before.reverse = texts s) ∧
      o.finishList = (startWith definitions).after before := by
  have hnone : o.finishList.frames = [] := by
    unfold Outline.finishList
    rw [h.finishEmptyItem_eq]
    obtain ⟨frames, blocks, lastBlank, emptyItem, defs⟩ := o
    cases h.frames with
    | nil => cases lastBlank <;> rfl
    | @list marker tight items outer houter =>
      obtain rfl : outer = [] := List.length_eq_zero_iff.1 (Nat.le_zero.1 (Nat.le_of_succ_le_succ hframes))
      cases lastBlank <;> cases tight <;> rfl
    | item hindent houter =>
      cases houter
      simp at hframes
  -- all but the blocks is the same as at a start
  have hlast := o.lastBlank_finishList
  obtain ⟨-, htexts, hdefinitions, hempty⟩ := h.finishList
  generalize o.finishList = p at *
  obtain ⟨frames, blocks, lastBlank, emptyItem, defs⟩ := p
  dsimp only at *
  subst hnone hlast hdefinitions hempty
  exact ⟨blocks, fun s => (headingTexts_of_closed rfl).symm.trans (htexts s), rfl⟩

/-- A line at the margin goes on with a list at most, as the items of lists are indented. -/
theorem exists_enterAll_eq (h : Listing definitions texts false o) {c : Char} {r : Text} (hl : l.text = c :: r)
    (hc : isSpace c = false) :
    ∃ n ≤ 1, Container.enterAll o.containers (.ofText l.text) = (n, .ofText l.text) := by
  rcases h.frames.outermost with ⟨-, hframes⟩ | ⟨hwithin, -⟩ | ⟨marker, tight, indent, inner, hindent, hcontainers⟩
  · exact ⟨0, Nat.zero_le 1, by rw [containers, hframes]; rfl⟩
  · cases hwithin
  · have hitem : Container.enter? (.item indent) (.ofText l.text) = none := by
      rw [hl, LineCursor.ofText, Container.enter?, LineCursor.take_flush hc]
      simp [LineCursor.atEnd, hindent.ne']
    refine ⟨1, le_rfl, ?_⟩
    rw [containers, hcontainers, Container.enterAll, Container.enter?]
    dsimp only
    rw [Container.enterAll, hitem]

/-! ### What is read -/

/-- Running text that begins with a link becomes a paragraph. -/
theorem readOwn_link (h : Listing definitions texts within o) (hlink : OpensLink link) (width : ℕ) (l : Line)
    (hrest : LinkList tail rest) (htail : rest = tail → tail = []) :
    Listing definitions texts false (o.readOwn ⟨link, width, 0⟩ l rest).1 ∧
      LinkList tail (o.readOwn ⟨link, width, 0⟩ l rest).2 := by
  have hfinished := h.finishList
  have hdefinition := hlink.readDefinition?_eq_none o.finishList.containers rest
  have hhead := hrest.tableHead?_eq_none htail hfinished.quote_notMem link
  obtain ⟨more, left, hmore, hleft⟩ := hrest.of_paragraphLines htail hfinished.quote_notMem
  obtain ⟨label, behind, rfl, -⟩ := hlink
  have hleaf : ∀ pending indent, readLeaf o.finishList.containers pending indent
      ⟨'[' :: (label ++ ']' :: behind), width, 0⟩ l rest =
        (.paragraph (⟨'[' :: (label ++ ']' :: behind), l.lineBreak⟩ :: more), left) := by
    intro pending indent
    unfold readLeaf
    dsimp only
    rw [hhead, hmore]
    rfl
  unfold readOwn
  rw [isBlankText_cons rfl, if_neg Bool.false_ne_true, LineCursor.takeUpTo, LineCursor.take_flush rfl]
  dsimp only
  rw [if_neg (by decide), hdefinition, hleaf]
  exact ⟨hfinished.append fun s => Block.headingTexts_paragraph s _, hleft⟩

/-- So does a link at the margin. -/
theorem read_link (h : Listing definitions texts false o) (hl : OpensLink l.text) (hrest : LinkList tail rest)
    (htail : rest = tail → tail = []) :
    Listing definitions texts false (o.read l rest).1 ∧ LinkList tail (o.read l rest).2 := by
  obtain ⟨label, behind, htext, -⟩ := id hl
  obtain ⟨n, -, henter⟩ := h.exists_enterAll_eq htext rfl
  obtain ⟨within, hpopped⟩ := h.exists_popTo n
  rw [read_eq henter (openContainers_link hl _ _ 0)]
  exact hpopped.readOwn_link hl 0 l hrest htail

/-- An item with a link goes on with the list or begins one, or it is code. -/
theorem read_item (h : Listing definitions texts false o) (hl : IsLinkItem l.text) (hrest : LinkList tail rest)
    (hflush : Flush tail) (htail : rest = tail → tail = []) :
    Listing definitions texts false (o.read l rest).1 ∧ LinkList tail (o.read l rest).2 := by
  obtain ⟨k, link, htext, hlink⟩ := hl
  obtain ⟨n, k', width, -, henter⟩ := Container.enterAll_spaces h.quote_notMem isSpace_dash k 0 (' ' :: link)
  rw [← LineCursor.ofText, ← htext] at henter
  obtain ⟨within, hpopped⟩ := h.exists_popTo n
  -- in the containers that are left, the item has less than four blanks in front of it, or is code
  by_cases hk : k' < 4
  · rw [read_eq henter (openContainers_item hlink hk _ _ _)]
    exact ((hpopped.continueList _).pushItem (Nat.succ_pos _)).readOwn_link hlink _ l hrest htail
  · have htake : LineCursor.takeUpTo ⟨List.replicate k' ' ' ++ '-' :: ' ' :: link, width, 0⟩ 4 =
        (4, ⟨List.replicate (k' - 4) ' ' ++ '-' :: ' ' :: link, width + min 4 k', 0⟩) := by
      have hmissing : 4 - k' = 0 := by omega
      rw [LineCursor.takeUpTo, LineCursor.take_spaces isSpace_dash, hmissing]
    have hopen : openContainers (l.text.length + 1) (o.popTo n)
        ⟨List.replicate k' ' ' ++ '-' :: ' ' :: link, width, 0⟩ =
          (o.popTo n, some ⟨List.replicate k' ' ' ++ '-' :: ' ' :: link, width, 0⟩) := by
      rw [openContainers, htake]
      rfl
    have hblank : isBlankText (List.replicate k' ' ' ++ '-' :: ' ' :: link) = false := by
      simp [isBlankText, isSpace_dash]
    have hfinished := hpopped.finishList
    rw [read_eq henter hopen, readOwn, hblank, if_neg Bool.false_ne_true, htake]
    dsimp only
    rw [if_pos rfl]
    have hcode : ∀ body lastBlank, Listing definitions texts false
        { (o.popTo n).finishList.append (.code [] body) with lastBlank } := by
      intro body lastBlank
      have happended := hfinished.append fun s => Block.headingTexts_code s [] body
      exact ⟨happended.frames, happended.texts_eq, happended.definitions, happended.emptyItem⟩
    exact ⟨hcode _ _, hrest.of_indentedLines hflush hfinished.quote_notMem⟩

/-- A blank line changes nothing that matters. -/
theorem read_blank (h : Listing definitions texts false o) (hl : IsBlankLine l.text) (rest : List Line) :
    ∃ o', Listing definitions texts false o' ∧ o.read l rest = (o', rest) := by
  have hall : (Container.enterAll o.containers (.ofText l.text)).1 = o.frames.length := by
    rw [Container.enterAll_blank h.quote_notMem hl, containers, List.length_reverse, List.length_map]
  have hown : IsBlankLine (Container.enterAll o.containers (.ofText l.text)).2.rest :=
    hl.of_suffix (Container.enterAll_suffix _ _)
  refine ⟨o.blankLine, h.blankLine, ?_⟩
  rw [read_eq rfl (by rw [hall, popTo_eq_self le_rfl]; exact openContainers_blank hown _ o), readOwn,
    if_pos hown.isBlankText]

/-- So items with links and blank lines leave no headings behind. -/
theorem exists_reaches (h : Listing definitions texts false o) (hls : LinkList tail ls) (hflush : Flush tail) :
    ∃ o', Listing definitions texts false o' ∧ Reaches o ls o' tail := by
  -- a block may take several lines, so the induction is on how many there are
  induction hn : ls.length using Nat.strong_induction_on generalizing o ls with
  | _ n ih =>
  subst hn
  have hstep : ∀ {l rest}, ls = l :: rest → Listing definitions texts false (o.read l rest).1 →
      LinkList tail (o.read l rest).2 → ∃ o', Listing definitions texts false o' ∧ Reaches o ls o' tail := by
    rintro l rest rfl hnext hleft
    have hlength : (o.read l rest).2.length < (l :: rest).length :=
      Nat.lt_succ_of_le (o.read_suffix l rest).length_le
    obtain ⟨o', ho', hreaches⟩ := ih _ hlength hnext hleft rfl
    exact ⟨o', ho', .step hreaches⟩
  cases hls with
  | done => exact ⟨o, h, .refl o tail⟩
  | blank hl hrest =>
    obtain ⟨o', ho', hread⟩ := h.read_blank hl _
    exact hstep rfl (by rwa [hread]) (by rwa [hread])
  | item hl htail hrest =>
    obtain ⟨hnext, hleft⟩ := h.read_item hl hrest hflush htail
    exact hstep rfl hnext hleft

/-! ### What comes behind -/

/-- What begins at the margin, and is no item, is read as if only the definitions were known. -/
theorem exists_read_eq (h : Listing definitions texts false o) (hflush : Flush (l :: rest)) :
    ∃ before, (∀ s, Block.headingTexts s before.reverse = texts s) ∧
      o.read l rest = ((startWith definitions).after before).read l rest := by
  obtain ⟨c, r, hl, hc, hitem⟩ := hflush l rfl
  obtain ⟨n, hn, henter⟩ := h.exists_enterAll_eq hl hc
  obtain ⟨within, hpopped⟩ := h.exists_popTo n
  obtain ⟨before, htexts, hfinish⟩ := hpopped.exists_finishList_eq ((length_frames_popTo_le n o).trans hn)
  -- the line closes the list that it meets, and at a start there is none
  have hfinish' : (o.popTo n).finishList = (((startWith definitions).after before).popTo 0).finishList := hfinish
  exact ⟨before, htexts, read_congr_of_finishList hl hc hitem henter rfl hfinish' rest⟩

/-- Nothing of the rest of a document depends on the lists. -/
theorem exists_finish_eq (h : Listing definitions texts false o) (hflush : Flush tail) :
    ∃ before, (∀ s, Block.headingTexts s before.reverse = texts s) ∧
      ((o.finish tail).popTo 0).blocks = (((startWith definitions).finish tail).popTo 0).blocks ++ before ∧
      ((o.finish tail).popTo 0).definitions = (((startWith definitions).finish tail).popTo 0).definitions := by
  cases tail with
  | nil =>
    obtain ⟨within, hclosed⟩ := h.exists_popTo 0
    have hnone : (o.popTo 0).frames = [] := List.length_eq_zero_iff.1 (Nat.le_zero.1 (length_frames_popTo_le 0 o))
    exact ⟨_, fun s => (headingTexts_of_closed hnone).symm.trans (hclosed.texts_eq s), rfl, hclosed.definitions⟩
  | cons l rest =>
    obtain ⟨before, htexts, hread⟩ := h.exists_read_eq hflush
    have hfinish : o.finish (l :: rest) = ((startWith definitions).finish (l :: rest)).after before := by
      rw [finish_cons, hread, ← finish_cons, after_finish]
    refine ⟨before, htexts, ?_, ?_⟩
    · rw [hfinish, after_popTo]
      rfl
    · rw [hfinish, after_popTo]
      rfl

end Listing

end Pagewright.Markdown
