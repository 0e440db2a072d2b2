import Mathlib.Data.List.TakeWhile
import Pagewright.Markdown.Leaf
import Pagewright.Proofs.Markdown.Line

/-!
# Items that begin with links

A line of a table of contents is an item with a link. Two things live here:

* a text that begins with a link does not begin a definition, whatever follows (`OpensLink.readDefinition?_eq_none`);
* lines with such items and blank lines in front of others (`LinkList`): a paragraph among them does not become a
  heading or a table, and neither a paragraph nor code goes further than they do (`LinkList.of_paragraphLines`,
  `LinkList.tableHead?_eq_none`, `LinkList.of_indentedLines`).
-/

namespace Pagewright.Markdown

variable {t label behind more : Text} {l : Line} {ls rest tail : List Line} {xs : List Container}

/-! ## Links -/

/-- Does the text begin with a text in brackets that is not the label of a definition? -/
def OpensLink (t : Text) : Prop :=
  ∃ label behind, t = '[' :: (label ++ ']' :: behind) ∧ ¬ "]:".toList <:+: label ∧ label.getLast? ≠ some '\\' ∧
    behind.head? ≠ some ':'

theorem exists_of_pushRead {c : Char} {read : Option (Text × Text)} {written : Text} {r : Text}
    (h : pushRead c read = some (written, r)) : ∃ written', read = some (written', r) := by
  obtain ⟨⟨written', r'⟩, hread, heq⟩ := Option.map_eq_some_iff.1 h
  obtain ⟨-, rfl⟩ := Prod.mk.inj heq
  exact ⟨written', hread⟩

/-- No colon follows the label, wherever the first bracket that closes it is. -/
theorem head?_ne_of_labelText? {written r : Text} (hcolon : ¬ "]:".toList <:+: label)
    (hlast : label.getLast? ≠ some '\\') (hbehind : behind.head? ≠ some ':')
    (h : labelText? (label ++ ']' :: behind) = some (written, r)) : r.head? ≠ some ':' := by
  -- the cases of the reader: the end of the label, brackets, an escape, any other character
  induction label using labelText?.induct generalizing written with
  | case1 =>
    obtain ⟨-, rfl⟩ := Prod.mk.inj (Option.some.inj h)
    exact hbehind
  | case2 u => cases h
  | case3 u =>
    -- a bracket in the label closes it, so no colon may follow it there
    obtain ⟨-, rfl⟩ := Prod.mk.inj (Option.some.inj h)
    intro hhead
    cases u with
    | nil => cases hhead
    | cons c u =>
      obtain rfl := Option.some.inj hhead
      exact hcolon ⟨[], u, rfl⟩
  | case4 c u ih =>
    obtain ⟨_, h⟩ := exists_of_pushRead h
    obtain ⟨_, h⟩ := exists_of_pushRead h
    exact ih (fun hu => hcolon (hu.trans ⟨['\\', c], [], by simp⟩))
      (fun hu => hlast (by simp [List.getLast?_cons, hu])) h
  | case5 c u hopen hclose hescape ih =>
    have hread : labelText? (c :: u ++ ']' :: behind) = pushRead c (labelText? (u ++ ']' :: behind)) := by
      rw [List.cons_append, labelText?]
      · exact hopen
      · exact hclose
      · intro d v hc hv
        cases u with
        | nil => exact hlast (by rw [hc]; rfl)
        | cons d u => exact hescape d u hc rfl
    rw [hread] at h
    obtain ⟨_, h⟩ := exists_of_pushRead h
    refine ih (fun hu => hcolon (hu.trans ⟨[c], [], by simp⟩)) (fun hu => hlast ?_) h
    simp [List.getLast?_cons, hu]

theorem OpensLink.definition?_eq_none (h : OpensLink t) (hmore : more.head? ≠ some ':') :
    definition? (t ++ more) = none := by
  obtain ⟨label, behind, rfl, hcolon, hlast, hbehind⟩ := h
  have hbehind' : (behind ++ more).head? ≠ some ':' := by
    cases behind with
    | nil => exact hmore
    | cons c behind => exact hbehind
  rw [List.cons_append, List.append_assoc, List.cons_append, definition?]
  cases hlabel : label? (label ++ ']' :: (behind ++ more)) with
  | none => rfl
  | some p =>
    obtain ⟨name, r⟩ := p
    have hr : r.head? ≠ some ':' := by
      unfold label? at hlabel
      split at hlabel
      · next hread =>
        split at hlabel
        · obtain ⟨-, rfl⟩ := Prod.mk.inj (Option.some.inj hlabel)
          exact head?_ne_of_labelText? hcolon hlast hbehind' hread
        · cases hlabel
      · cases hlabel
    have hafter : Text.after? ":".toList r = none := by
      cases r with
      | nil => rfl
      | cons c r => exact if_neg fun hc => hr (by rw [← hc]; rfl)
    show (Text.after? ":".toList r).bind _ = none
    rw [hafter]
    rfl

theorem OpensLink.readDefinition?_eq_none (h : OpensLink t) (xs : List Container) (rest : List Line) :
    readDefinition? xs t rest = none := by
  -- the lines below are joined to the text, by line breaks
  have hjoin : ∀ ts : List Text, ∃ more, Text.join ['\n'] (t :: ts) = t ++ more ∧ more.head? ≠ some ':' := by
    intro ts
    cases ts with
    | nil => exact ⟨[], (List.append_nil t).symm, by simp⟩
    | cons u ts => exact ⟨_, List.append_assoc t _ _, by simp⟩
  obtain ⟨more, hmore, hhead⟩ := hjoin (definitionLines xs rest)
  unfold readDefinition?
  dsimp only
  rw [hmore, h.definition?_eq_none hhead]
  split <;> rfl

/-! ## Lines of a list of links -/

/-- Is the text the line of an item that begins with a link? -/
def IsLinkItem (t : Text) : Prop := ∃ k link, t = List.replicate k ' ' ++ '-' :: ' ' :: link ∧ OpensLink link

/-- Items with links and blank lines, down to some other lines. If there are such, a blank line stands above them. -/
inductive LinkList (tail : List Line) : List Line → Prop
  | done : LinkList tail tail
  | blank {l : Line} {rest : List Line} (hl : IsBlankLine l.text) : LinkList tail rest → LinkList tail (l :: rest)
  | item {l : Line} {rest : List Line} (hl : IsLinkItem l.text) (hrest : rest = tail → tail = []) :
    LinkList tail rest → LinkList tail (l :: rest)

theorem LinkList.length_le (h : LinkList tail ls) : tail.length ≤ ls.length := by
  induction h with
  | done => exact le_rfl
  | blank _ _ ih => exact Nat.le_succ_of_le ih
  | item _ _ _ ih => exact Nat.le_succ_of_le ih

theorem LinkList.of_blanks {blanks : List Line} (h : ∀ l ∈ blanks, IsBlankLine l.text) :
    LinkList tail (blanks ++ tail) := by
  induction blanks with
  | nil => exact .done
  | cons l blanks ih =>
    obtain ⟨hl, hblanks⟩ := List.forall_mem_cons.1 h
    exact .blank hl (ih hblanks)

theorem LinkList.of_items {ws : List Text} (hws : ∀ w ∈ ws, IsLinkItem w) {ls : List Line} (hls : LinkList tail ls)
    (hlength : tail.length < ls.length) : LinkList tail (ws.map (⟨·, ['\n']⟩) ++ ls) := by
  induction ws with
  | nil => exact hls
  | cons w ws ih =>
    obtain ⟨hw, hws⟩ := List.forall_mem_cons.1 hws
    refine .item hw (fun heq : ws.map (⟨·, ['\n']⟩) ++ ls = tail => ?_) (ih hws)
    rw [← heq, List.length_append] at hlength
    omega

/-- What begins at the margin and is no item of a list. -/
def Flush (ls : List Line) : Prop :=
  ∀ l ∈ ls.head?, ∃ c r, l.text = c :: r ∧ isSpace c = false ∧ listItem? (.ofText l.text) 0 = none

section Readers

variable {c : Char} {r : Text}

theorem isSpace_dash : isSpace '-' = false := rfl

theorem isBlankText_cons (hc : isSpace c = false) (r : Text) : isBlankText (c :: r) = false := by
  rw [isBlankText, List.all_cons, hc]
  rfl

theorem IsBlankLine.enterLine (h : IsBlankLine l.text) (xs : List Container) :
    IsBlankLine (Container.enterLine xs l).2.rest := h.of_suffix (Container.enterAll_suffix xs _)

theorem IsBlankLine.underlineLevel?_eq_none (h : IsBlankLine t) : underlineLevel? t = none := by
  unfold underlineLevel?
  split
  · simpa using h '=' List.mem_cons_self
  · simpa using h '-' List.mem_cons_self
  · rfl

theorem IsBlankLine.tableColumns?_eq_none (h : IsBlankLine t) : tableColumns? t = none := by
  have hbar : ((LineCursor.ofText t).takeUpTo 4).2.rest.any (· = '|') = false := by
    refine List.any_eq_false.2 fun c hc => ?_
    rcases h.of_suffix (LineCursor.take_suffix _ 4) c hc with rfl | rfl <;> decide
  unfold tableColumns?
  dsimp only
  rw [hbar]
  simp

/-- A bracket does not stand in the line below the head of a table. -/
theorem tableColumns?_eq_none_of_mem (hc : isSpace c = false) (hr : '[' ∈ c :: r) (k : ℕ) :
    tableColumns? (List.replicate k ' ' ++ c :: r) = none := by
  have hall : ((LineCursor.ofText (List.replicate k ' ' ++ c :: r)).takeUpTo 4).2.rest.all
      (· ∈ [' ', ':', '-', '|']) = false := by
    rw [LineCursor.takeUpTo, LineCursor.ofText, LineCursor.take_spaces hc]
    exact List.all_eq_false.2 ⟨'[', List.mem_append_right _ hr, by decide⟩
  unfold tableColumns?
  dsimp only
  rw [hall]
  simp

/-- Where the text of a line with an item begins, once the containers are entered. -/
theorem IsLinkItem.enterLine (h : IsLinkItem l.text) (hxs : .quote ∉ xs) :
    ∃ inside k width link, Container.enterLine xs l =
      (inside, ⟨List.replicate k ' ' ++ '-' :: ' ' :: '[' :: link, width, 0⟩) := by
  obtain ⟨k, link, hl, label, behind, rfl, -⟩ := h
  obtain ⟨n, k', width, -, henter⟩ := Container.enterAll_spaces hxs isSpace_dash k 0
    (' ' :: '[' :: (label ++ ']' :: behind))
  exact ⟨_, k', width, label ++ ']' :: behind, by rw [Container.enterLine, hl, LineCursor.ofText, henter]⟩

/-- None of the lines is the one below the head of a table. -/
theorem LinkList.tableHead?_eq_none (h : LinkList tail ls) (hls : ls = tail → tail = []) (hxs : .quote ∉ xs)
    (t : Text) : tableHead? xs t ls = none := by
  have hcolumns : ∀ (l : Line) (rest : List Line), tableColumns? (Container.enterLine xs l).2.rest = none →
      tableHead? xs t (l :: rest) = none := by
    intro l rest hl
    rw [tableHead?]
    dsimp only
    rw [hl]
  cases h with
  | done =>
    rw [hls rfl]
    rfl
  | blank hl _ => exact hcolumns _ _ (hl.enterLine xs).tableColumns?_eq_none
  | item hl _ _ =>
    obtain ⟨inside, k, width, link, henter⟩ := hl.enterLine hxs
    refine hcolumns _ _ ?_
    rw [henter]
    exact tableColumns?_eq_none_of_mem isSpace_dash (by simp) k

/-- A paragraph among the lines is no heading, and goes no further than they do. -/
theorem LinkList.of_paragraphLines (h : LinkList tail ls) (hls : ls = tail → tail = []) (hxs : .quote ∉ xs) :
    ∃ more left, paragraphLines xs ls = (more, none, left) ∧ LinkList tail left := by
  induction h with
  | done =>
    -- what is below the lines would go on with the paragraph, so there must be nothing
    obtain rfl := hls rfl
    exact ⟨[], [], rfl, .done⟩
  | @blank l rest hl hrest ih =>
    have hcontent : (Container.enterLine xs l).2.content = [] :=
      List.dropWhile_eq_nil_iff.2 fun c hc => by simpa using hl.enterLine xs c hc
    have hunderline : underlineLevel? ((Container.enterLine xs l).2.take 4).2.rest = none :=
      ((hl.enterLine xs).of_suffix (LineCursor.take_suffix _ 4)).underlineLevel?_eq_none
    refine ⟨[], l :: rest, ?_, .blank hl hrest⟩
    rw [paragraphLines]
    dsimp only
    rw [hunderline, hcontent]
    simp
  | @item l rest hl hnext hrest ih =>
    obtain ⟨more, left, hmore, hleft⟩ := ih hnext
    obtain ⟨inside, k, width, link, henter⟩ := hl.enterLine hxs
    rw [paragraphLines, henter]
    dsimp only
    rw [LineCursor.take_spaces isSpace_dash]
    dsimp only
    -- with four blanks it is not looked at, with fewer a dash and a blank are no line below a heading
    have hunderline : (if (inside && decide (4 - k ≠ 0)) = true then
        underlineLevel? (List.replicate (k - 4) ' ' ++ '-' :: ' ' :: '[' :: link) else none) = none := by
      split
      · next h =>
        obtain ⟨-, hk⟩ : inside = true ∧ 4 - k ≠ 0 := by simpa using h
        have hk0 : k - 4 = 0 := by omega
        rw [hk0]
        rfl
      · rfl
    rw [hunderline, hmore]
    dsimp only
    split
    · exact ⟨[], l :: rest, rfl, .item hl hnext hrest⟩
    · exact ⟨_, left, rfl, hleft⟩

/-- So does code that is indented, if what is below the lines begins at the margin. -/
theorem LinkList.of_indentedLines (h : LinkList tail ls) (htail : Flush tail) (hxs : .quote ∉ xs) :
    LinkList tail (indentedLines xs ls).2 := by
  have hstep : ∀ (l : Line) (rest : List Line), LinkList tail (l :: rest) →
      LinkList tail (indentedLines xs rest).2 → LinkList tail (indentedLines xs (l :: rest)).2 := by
    intro l rest hl hrest
    rw [indentedLines]
    dsimp only
    split
    · exact hrest
    · exact hl
  induction h with
  | done =>
    cases tail with
    | nil => exact .done
    | cons l rest =>
      obtain ⟨c, r, hl, hc, -⟩ := htail l rfl
      obtain ⟨n, k, width, hk, henter⟩ := Container.enterAll_spaces hxs hc 0 0 r
      obtain rfl := Nat.le_zero.1 hk
      have hline : Container.enterLine xs l = (decide (n = xs.length), ⟨c :: r, width, 0⟩) := by
        rw [Container.enterLine, hl]
        exact congrArg (fun p : ℕ × LineCursor => (decide (p.1 = xs.length), p.2)) henter
      rw [indentedLines, hline]
      dsimp only
      rw [LineCursor.take_flush hc]
      simpa [LineCursor.atEnd] using LinkList.done
  | blank hl hrest ih => exact hstep _ _ (.blank hl hrest) ih
  | item hl hnext hrest ih => exact hstep _ _ (.item hl hnext hrest) ih

theorem listItem?_link (r : Text) (width indent : ℕ) :
    listItem? ⟨'-' :: ' ' :: '[' :: r, width, 0⟩ indent =
      some (⟨'-', 0⟩, indent + 2, ⟨'[' :: r, width + 2, 0⟩) := by
  have hrule : isRule ('-' :: ' ' :: '[' :: r) = false := by simp [isRule]
  have hbehind : LineCursor.take (LineCursor.skip ⟨'-' :: ' ' :: '[' :: r, width, 0⟩ 1) 1 =
      (0, ⟨'[' :: r, width + 2, 0⟩) := LineCursor.take_spaces (c := '[') rfl 1 1 (width + 1) r
  have hbullet : listMarker? ('-' :: ' ' :: '[' :: r) = some (⟨'-', 0⟩, 1) := rfl
  rw [listItem?, hrule, if_neg Bool.false_ne_true, hbullet]
  dsimp only
  rw [hbehind]
  dsimp only
  rw [isBlankText_cons rfl, LineCursor.takeUpTo, LineCursor.take_flush rfl]
  rfl

theorem listItem?_blank {cursor : LineCursor} (hcursor : IsBlankLine cursor.rest) (indent : ℕ) :
    listItem? cursor indent = none := by
  have hmarker : listMarker? cursor.rest = none := by
    cases hrest : cursor.rest with
    | nil => rfl
    | cons c r => rcases hcursor c (by rw [hrest]; exact List.mem_cons_self) with rfl | rfl <;> rfl
  rw [listItem?, hmarker]
  exact ite_self _

end Readers

end Pagewright.Markdown
