import Mathlib.Data.List.Induction
import Mathlib.Data.List.Infix
import Pagewright.Markdown.Block

/-!
# The lines of a text, and blanks at their start

Two things live here:

* the lines of texts that are put together, where a line ends between them (`lines_append`), or where the first one is
  part of a line (`lines_unbroken_append`) or consists of lines itself (`lines_join_append`);
* what a `LineCursor` takes off a line that begins with spaces (`LineCursor.take_spaces`), off one that begins with no
  blank (`LineCursor.take_flush`), and off one with nothing but blanks (`LineCursor.takeFrom_blank`); so what is left of
  such lines inside of lists (`Container.enterAll_spaces`, `Container.enterAll_blank`).
-/

namespace Pagewright.Markdown

variable {c : Char} {s t w : Text} {l : Line} {rest : List Line}

/-! ## Lines -/

/-- Is there no line break in the text? -/
def Unbroken (t : Text) : Prop := '\n' ∉ t ∧ '\r' ∉ t

instance (t : Text) : Decidable (Unbroken t) := inferInstanceAs (Decidable (_ ∧ _))

theorem Unbroken.append (hs : Unbroken s) (ht : Unbroken t) : Unbroken (s ++ t) :=
  ⟨by simp [hs.1, ht.1], by simp [hs.2, ht.2]⟩

theorem lines_cons (hc : c ≠ '\n') (hc' : c ≠ '\r') (t : Text) : lines (c :: t) = prependChar c (lines t) := by
  rw [lines]
  · simp [hc, hc']
  · rintro r rfl
    exact absurd rfl hc'

theorem lines_newline (t : Text) : lines ('\n' :: t) = ⟨[], ['\n']⟩ :: lines t := by
  rw [lines]
  · simp
  · rintro r ⟨⟩

theorem lines_return (h : t.head? ≠ some '\n') : lines ('\r' :: t) = ⟨[], ['\r']⟩ :: lines t := by
  rw [lines]
  · simp
  · rintro r - rfl
    exact h rfl

theorem prependChar_append (h : rest ≠ []) (c : Char) (ls : List Line) :
    prependChar c (rest ++ ls) = prependChar c rest ++ ls := by
  cases rest with
  | nil => exact absurd rfl h
  | cons l rest => rfl

theorem lines_ne_nil (h : t ≠ []) : lines t ≠ [] := by
  fun_cases lines t with
  | case1 => exact absurd rfl h
  | case2 r => exact List.cons_ne_nil _ _
  | case3 c r hcr hbreak => exact List.cons_ne_nil _ _
  | case4 c r hcr hbreak => cases lines r <;> exact List.cons_ne_nil _ _

/-- The lines of a text that ends with a line, and those of the text behind it. -/
theorem lines_append_newline (s t : Text) : lines (s ++ '\n' :: t) = lines (s ++ ['\n']) ++ lines t := by
  induction s using lines.induct with
  | case1 => exact (lines_newline t).trans (congrArg (· ++ lines t) (lines_newline []).symm)
  | case2 r ih => exact congrArg _ ih
  | case3 c r hcr hbreak ih =>
    rcases (by simpa using hbreak : c = '\n' ∨ c = '\r') with rfl | rfl
    · rw [List.cons_append, List.cons_append, lines_newline, lines_newline, ih, List.cons_append]
    · cases r with
      | nil => rfl
      | cons d r =>
        -- a carriage return is a line break of its own, as no newline follows it
        have hd : ∀ u : Text, ((d :: r) ++ u).head? ≠ some '\n' := by
          rintro u ⟨⟩
          exact hcr r rfl rfl
        calc lines ('\r' :: ((d :: r) ++ '\n' :: t))
            = ⟨[], ['\r']⟩ :: lines ((d :: r) ++ '\n' :: t) := lines_return (hd _)
          _ = (⟨[], ['\r']⟩ :: lines ((d :: r) ++ ['\n'])) ++ lines t := congrArg _ ih
          _ = lines ('\r' :: ((d :: r) ++ ['\n'])) ++ lines t := by rw [lines_return (hd _)]
  | case4 c r hcr hbreak ih =>
    obtain ⟨hc, hc'⟩ : c ≠ '\n' ∧ c ≠ '\r' := by simpa using hbreak
    rw [List.cons_append, List.cons_append, lines_cons hc hc', lines_cons hc hc', ih,
      prependChar_append (lines_ne_nil (by simp))]

/-- A text in which the last line is complete. -/
def EndsLine (t : Text) : Prop := ∀ c ∈ t.getLast?, c = '\n'

theorem lines_append (h : EndsLine s) (t : Text) : lines (s ++ t) = lines s ++ lines t := by
  cases s using List.reverseRecOn with
  | nil => rfl
  | append_singleton s c =>
    obtain rfl : c = '\n' := h c List.getLast?_concat
    rw [List.append_assoc]
    exact lines_append_newline s t

/-- A text without line breaks goes on with the first line of the text behind it. -/
theorem lines_unbroken_append (h : Unbroken w) (t : Text) : lines (w ++ t) = w.foldr prependChar (lines t) := by
  induction w with
  | nil => rfl
  | cons c w ih =>
    obtain ⟨⟨hc, hw⟩, hc', hw'⟩ := And.intro (not_or.1 (List.mem_cons.not.1 h.1)) (not_or.1 (List.mem_cons.not.1 h.2))
    rw [List.cons_append, lines_cons (Ne.symm hc) (Ne.symm hc'), ih ⟨hw, hw'⟩, List.foldr_cons]

theorem foldr_prependChar_cons (w : Text) (l : Line) (rest : List Line) :
    w.foldr prependChar (l :: rest) = { l with text := w ++ l.text } :: rest := by
  induction w with
  | nil => rfl
  | cons c w ih => rw [List.foldr_cons, ih]; rfl

theorem foldr_prependChar_nil (h : w ≠ []) : w.foldr prependChar [] = [⟨w, []⟩] := by
  cases w with
  | nil => exact absurd rfl h
  | cons c w =>
    induction w generalizing c with
    | nil => rfl
    | cons d w ih => rw [List.foldr_cons, ih d (List.cons_ne_nil _ _)]; rfl

/-- Texts without line breaks, each on a line of its own but for the last one, which the text behind goes on with. -/
theorem lines_join_append {ws : List Text} (hws : ∀ w ∈ ws, Unbroken w) (w : Text) (hw : Unbroken w) (t : Text) :
    lines (Text.join ['\n'] (ws ++ [w]) ++ t) = ws.map (⟨·, ['\n']⟩) ++ w.foldr prependChar (lines t) := by
  induction ws with
  | nil => exact lines_unbroken_append hw t
  | cons v ws ih =>
    obtain ⟨hv, hws⟩ := List.forall_mem_cons.1 hws
    have hjoin : Text.join ['\n'] (v :: (ws ++ [w])) = v ++ '\n' :: Text.join ['\n'] (ws ++ [w]) := by
      cases ws <;> simp [Text.join]
    rw [List.cons_append, hjoin, List.append_assoc, List.cons_append, lines_unbroken_append hv, lines_newline,
      foldr_prependChar_cons, ih hws, List.append_nil]
    rfl

/-! ## Blanks at the start of a line -/

/-- Is there nothing but spaces and tabs on the line? -/
def IsBlankLine (t : Text) : Prop := ∀ c ∈ t, c = ' ' ∨ c = '\t'

theorem IsBlankLine.isBlankText (h : IsBlankLine t) : isBlankText t := by
  refine List.all_eq_true.2 fun c hc => ?_
  rcases h c hc with rfl | rfl <;> rfl

theorem IsBlankLine.of_suffix (h : IsBlankLine t) (hs : s <:+ t) : IsBlankLine s := fun c hc => h c (hs.subset hc)

namespace LineCursor

theorem takeFrom_suffix (n width pending : ℕ) (t : Text) : (takeFrom n width pending t).2.rest <:+ t := by
  induction t generalizing n width pending with
  | nil => exact List.suffix_rfl
  | cons c r ih =>
    rw [takeFrom]
    split
    · exact List.suffix_rfl
    · split
      · exact (ih _ _ _).trans (List.suffix_cons c r)
      · split
        · exact (ih _ _ _).trans (List.suffix_cons c r)
        · exact List.suffix_rfl

theorem take_suffix (c : LineCursor) (n : ℕ) : (c.take n).2.rest <:+ c.rest := takeFrom_suffix _ _ _ _

/-- Spaces in front of a character that is no blank: as many are taken as there are. -/
theorem take_spaces (hc : isSpace c = false) (n k width : ℕ) (r : Text) :
    take ⟨List.replicate k ' ' ++ c :: r, width, 0⟩ n =
      (n - k, ⟨List.replicate (k - n) ' ' ++ c :: r, width + min n k, 0⟩) := by
  obtain ⟨hspace, htab⟩ : c ≠ ' ' ∧ c ≠ '\t' := by
    constructor <;> rintro rfl <;> cases hc
  show takeFrom (n - min 0 n) width (0 - min 0 n) _ = _
  rw [Nat.zero_min, Nat.sub_zero, Nat.sub_zero]
  induction k generalizing n width with
  | zero =>
    show takeFrom n width 0 (c :: r) = _
    rw [takeFrom, if_neg hspace, if_neg htab]
    split
    · next h => rw [h]; rfl
    · simp
  | succ k ih =>
    rw [List.replicate_succ, List.cons_append, takeFrom]
    cases n with
    | zero => simp [List.replicate_succ]
    | succ n =>
      rw [if_neg (Nat.succ_ne_zero n), if_pos rfl, Nat.add_sub_cancel, ih, Nat.add_sub_add_right,
        Nat.add_sub_add_right, Nat.add_min_add_right, Nat.add_assoc, Nat.add_comm 1]

/-- Nothing is taken off a line that begins with no blank. -/
theorem take_flush (hc : isSpace c = false) (n width : ℕ) (r : Text) :
    take ⟨c :: r, width, 0⟩ n = (n, ⟨c :: r, width, 0⟩) := by
  have h := take_spaces hc n 0 width r
  rwa [Nat.sub_zero, Nat.zero_sub, Nat.min_zero] at h

/-- All columns are taken off a blank line that are there. -/
theorem takeFrom_blank (ht : IsBlankLine t) (n width pending : ℕ) :
    (takeFrom n width pending t).1 = 0 ∨ (takeFrom n width pending t).2.rest = [] := by
  induction t generalizing n width pending with
  | nil => exact Or.inr rfl
  | cons d r ih =>
    obtain ⟨hd, hr⟩ := List.forall_mem_cons.1 ht
    rw [takeFrom]
    split
    · exact Or.inl rfl
    · split
      · exact ih hr _ _ _
      · next hspace =>
        rw [if_pos (hd.resolve_left hspace)]
        exact ih hr _ _ _

end LineCursor

/-! ## Containers -/

namespace Container

theorem enter?_suffix {x : Container} {cursor next : LineCursor} (h : x.enter? cursor = some next) :
    next.rest <:+ cursor.rest := by
  cases x with
  | quote =>
    rw [enter?, LineCursor.quoteMark?] at h
    split at h
    · next r hr =>
      obtain rfl := Option.some.inj h
      exact (LineCursor.take_suffix _ 1).trans ((List.drop_suffix 1 _).trans (LineCursor.take_suffix _ 3))
    · cases h
  | list marker tight =>
    obtain rfl := Option.some.inj h
    exact List.suffix_rfl
  | item indent =>
    rw [enter?] at h
    dsimp only at h
    split at h
    · obtain rfl := Option.some.inj h
      exact LineCursor.take_suffix _ _
    · cases h

theorem enterAll_suffix (xs : List Container) (cursor : LineCursor) :
    (enterAll xs cursor).2.rest <:+ cursor.rest := by
  induction xs generalizing cursor with
  | nil => exact List.suffix_rfl
  | cons x xs ih =>
    rw [enterAll]
    split
    · next next h => exact (ih next).trans (enter?_suffix h)
    · exact List.suffix_rfl

/-- Lists and their items take nothing but spaces off a line that begins with spaces. -/
theorem enterAll_spaces {xs : List Container} (hxs : .quote ∉ xs) (hc : isSpace c = false) (k width : ℕ) (r : Text) :
    ∃ n k' width', k' ≤ k ∧ enterAll xs ⟨List.replicate k ' ' ++ c :: r, width, 0⟩ =
      (n, ⟨List.replicate k' ' ' ++ c :: r, width', 0⟩) := by
  induction xs generalizing k width with
  | nil => exact ⟨0, k, width, le_rfl, rfl⟩
  | cons x xs ih =>
    obtain ⟨hx, hxs⟩ := not_or.1 (List.mem_cons.not.1 hxs)
    have hnext : ∀ next, x.enter? ⟨List.replicate k ' ' ++ c :: r, width, 0⟩ = some next →
        ∃ k' width', k' ≤ k ∧ next = ⟨List.replicate k' ' ' ++ c :: r, width', 0⟩ := by
      intro next h
      cases x with
      | quote => exact absurd rfl hx
      | list marker tight => exact ⟨k, width, le_rfl, (Option.some.inj h).symm⟩
      | item indent =>
        rw [enter?, LineCursor.take_spaces hc] at h
        dsimp only at h
        split at h
        · exact ⟨_, _, Nat.sub_le _ _, (Option.some.inj h).symm⟩
        · cases h
    rw [enterAll]
    split
    · next next h =>
      obtain ⟨k', width', hk', rfl⟩ := hnext next h
      obtain ⟨n, k'', width'', hk'', h'⟩ := ih hxs k' width'
      exact ⟨n + 1, k'', width'', hk''.trans hk', by rw [h']⟩
    · exact ⟨0, k, width, le_rfl, rfl⟩

/-- A blank line belongs to all lists and their items. -/
theorem enterAll_blank {xs : List Container} (hxs : .quote ∉ xs) {cursor : LineCursor}
    (hcursor : IsBlankLine cursor.rest) : (enterAll xs cursor).1 = xs.length := by
  induction xs generalizing cursor with
  | nil => rfl
  | cons x xs ih =>
    obtain ⟨hx, hxs⟩ := not_or.1 (List.mem_cons.not.1 hxs)
    have hnext : ∃ next, x.enter? cursor = some next := by
      cases x with
      | quote => exact absurd rfl hx
      | list marker tight => exact ⟨cursor, rfl⟩
      | item indent =>
        -- where the columns of the item are not there, the line is at its end, which is as good
        have htake : (cursor.take indent).1 = 0 ∨ (cursor.take indent).2.rest = [] :=
          LineCursor.takeFrom_blank hcursor _ _ _
        have henters : (decide ((cursor.take indent).1 = 0) || (cursor.take indent).2.atEnd) = true := by
          simpa only [Bool.or_eq_true, decide_eq_true_eq, LineCursor.atEnd, List.isEmpty_iff] using htake
        exact ⟨(cursor.take indent).2, if_pos henters⟩
    obtain ⟨next, hnext⟩ := hnext
    rw [enterAll, hnext]
    exact congrArg (· + 1) (ih hxs (hcursor.of_suffix (enter?_suffix hnext)))

end Container

end Pagewright.Markdown
