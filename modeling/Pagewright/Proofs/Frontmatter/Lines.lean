import Pagewright.Frontmatter.Split
import Pagewright.Proofs.Text.Occurrence

/-!
# The header of a document, line by line

A document is read as lines (`Header.lines`). If its first line is a line of dashes, the header is what stands
between it and the next line of dashes, and the body is what follows that one (`Header.splitLines`).

`splitHeader` looks for the end of the header only behind the first line of it. So it agrees with the
reading by lines as long as that first line is not itself the end (`splitHeader_eq_splitLines_iff`): where the
header is empty and a line of dashes stands in the body, the body up to that line is taken for the header.
-/

namespace Pagewright.Header

/-! ## Lines -/

/-- A line and the line break behind it, which only the last line may lack. -/
structure Line where
  text : Text
  lineBreak : Text
deriving DecidableEq, Inhabited

/-- The lines of a text. A line ends with a line feed, which may have a carriage return in front of it. -/
def lines : Text → List Line
  | [] => []
  | '\n' :: r => ⟨[], ['\n']⟩ :: lines r
  | '\r' :: '\n' :: r => ⟨[], ['\r', '\n']⟩ :: lines r
  | c :: r =>
    match lines r with
    | [] => [⟨[c], []⟩]
    | l :: ls => ⟨c :: l.text, l.lineBreak⟩ :: ls

/-- Does a line consist of three dashes, with only spaces and tabs behind them? -/
def Line.isDashes (l : Line) : Bool :=
  match Text.after? "---".toList l.text with
  | some r => r.all isSpaceOrTab
  | none => false

/-- Lines as they are written. -/
def written (ls : List Line) : Text := ls.flatMap fun l => l.text ++ l.lineBreak

/-- Lines without the line break of the last one. -/
def between : List Line → Text
  | [] => []
  | [l] => l.text
  | l :: m :: ls => l.text ++ l.lineBreak ++ between (m :: ls)

/-- The header and the body of a document: what stands between its first line and the next one of dashes, and
what follows. -/
def splitLines (t : Text) : Option Text × Text :=
  match lines t with
  | opening :: ls =>
    if opening.isDashes && opening.lineBreak ≠ [] then
      match ls.dropWhile (!·.isDashes) with
      | _closing :: body => (some (between (ls.takeWhile (!·.isDashes))), written body)
      | [] => (none, t)
    else (none, t)
  | [] => (none, t)

variable {c : Char} {t r : Text} {l : Line} {ls : List Line}

theorem lines_eq_nil_iff : lines t = [] ↔ t = [] := by
  fun_cases lines t <;> simp_all

/-- A character that begins no line break belongs to the first line. -/
theorem lines_cons_of_ne (hn : c ≠ '\n') (hr : c = '\r' → r.head? ≠ some '\n') :
    lines (c :: r) = match lines r with
      | [] => [⟨[c], []⟩]
      | l :: ls => ⟨c :: l.text, l.lineBreak⟩ :: ls := by
  rw [lines.eq_def]
  split <;> simp_all

theorem written_lines (t : Text) : written (lines t) = t := by
  fun_induction lines t with
  | case1 => rfl
  | case2 r ih => simpa [written] using ih
  | case3 r ih => simpa [written] using ih
  | case4 c r _ _ h ih =>
    rw [h] at ih
    simpa [written] using ih
  | case5 c r _ _ l ls h ih =>
    rw [h] at ih
    simpa [written] using ih

theorem lineBreak_cases (h : lines t = l :: ls) :
    l.lineBreak = [] ∧ ls = [] ∨ l.lineBreak = ['\n'] ∨ l.lineBreak = ['\r', '\n'] := by
  fun_induction lines t generalizing l ls with
  | case1 => simp at h
  | case2 r =>
    rw [List.cons.injEq] at h
    exact Or.inr (Or.inl (h.1 ▸ rfl))
  | case3 r =>
    rw [List.cons.injEq] at h
    exact Or.inr (Or.inr (h.1 ▸ rfl))
  | case4 c r =>
    rw [List.cons.injEq] at h
    exact Or.inl ⟨h.1 ▸ rfl, h.2.symm⟩
  | case5 c r _ _ l' ls' hr ih =>
    rw [List.cons.injEq] at h
    have hfirst := ih hr
    rw [← h.1, ← h.2]
    exact hfirst

/-- What begins no line break belongs to the first line. -/
theorem lines_append {u : Text} (hu : ∀ c ∈ u, c ≠ '\n' ∧ c ≠ '\r') (h : lines t = l :: ls) :
    lines (u ++ t) = ⟨u ++ l.text, l.lineBreak⟩ :: ls := by
  induction u with
  | nil => exact h
  | cons c u ih =>
    obtain ⟨hn, hr⟩ := hu c List.mem_cons_self
    rw [List.cons_append, lines_cons_of_ne hn fun hc => absurd hc hr,
      ih fun d hd => hu d (List.mem_cons_of_mem c hd)]
    rfl

/-- Without a line break there is one line. -/
theorem lines_eq_singleton {u : Text} (hu : ∀ c ∈ u, c ≠ '\n' ∧ c ≠ '\r') (hne : u ≠ []) :
    lines u = [⟨u, []⟩] := by
  obtain ⟨v, c, hv⟩ := (List.eq_nil_or_concat u).resolve_left hne
  rw [List.concat_eq_append] at hv
  subst hv
  obtain ⟨hn, hr⟩ := hu c (by simp)
  have hlast : lines [c] = [⟨[c], []⟩] := by
    rw [lines_cons_of_ne hn fun hc => absurd hc hr]
    rfl
  exact lines_append (fun d hd => hu d (List.mem_append_left _ hd)) hlast

/-! ## Lines of dashes -/

theorem isDashes_iff : l.isDashes ↔ ∃ u, l.text = "---".toList ++ u ∧ ∀ c ∈ u, isSpaceOrTab c := by
  unfold Line.isDashes
  split
  · next u h =>
    rw [Text.after?_eq_some_iff] at h
    rw [h, List.all_eq_true]
    exact ⟨fun hu => ⟨u, rfl, hu⟩, fun ⟨v, hv, hu⟩ => List.append_cancel_left hv ▸ hu⟩
  · next h =>
    refine ⟨fun hf => absurd hf (by simp), fun ⟨u, hu, _⟩ => ?_⟩
    rw [hu, Text.after?_append_self] at h
    simp at h

/-- Behind the dashes of the first line comes its line break. -/
theorem afterDashes?_of_isDashes (h : lines t = l :: ls) (hl : l.isDashes) :
    afterDashes? t = some (l.lineBreak ++ written ls) := by
  obtain ⟨u, hu, hblank⟩ := isDashes_iff.1 hl
  have ht : t = "---".toList ++ (u ++ (l.lineBreak ++ written ls)) := by
    have hw := written_lines t
    rw [h] at hw
    rw [← hw, written, List.flatMap_cons, hu, List.append_assoc, List.append_assoc]
    rfl
  have hstop : (l.lineBreak ++ written ls).dropWhile isSpaceOrTab = l.lineBreak ++ written ls := by
    rcases lineBreak_cases h with ⟨hb, hls⟩ | hb | hb
    · rw [hb, hls]
      rfl
    · rw [hb]
      exact List.dropWhile_cons_of_neg (by decide)
    · rw [hb]
      exact List.dropWhile_cons_of_neg (by decide)
  rw [afterDashes?, ht, Text.after?_append_self, Option.map_some,
    List.dropWhile_append_of_pos hblank, hstop]

/-- Dashes with a line break or the end of the text behind them are a line of dashes. -/
theorem exists_lines_of_afterDashes? {x : Text} (h : afterDashes? t = some x)
    (hx : x = [] ∨ ∃ r, afterLineBreak? x = some r) : ∃ l ls, lines t = l :: ls ∧ l.isDashes := by
  obtain ⟨y, hy, hdrop⟩ := Option.map_eq_some_iff.1 h
  rw [Text.after?_eq_some_iff] at hy
  have hsplit : y = y.takeWhile isSpaceOrTab ++ x := by
    rw [← hdrop, List.takeWhile_append_dropWhile]
  have hblank : ∀ c ∈ y.takeWhile isSpaceOrTab, isSpaceOrTab c := fun c hc => List.mem_takeWhile_imp hc
  have ht : t = ("---".toList ++ y.takeWhile isSpaceOrTab) ++ x := by
    rw [List.append_assoc, ← hsplit, hy]
  have hplain : ∀ c ∈ "---".toList ++ y.takeWhile isSpaceOrTab, c ≠ '\n' ∧ c ≠ '\r' := by
    intro c hc
    rcases List.mem_append.1 hc with hc | hc
    · have hc : c = '-' := by simpa using hc
      rw [hc]
      decide
    · have hb := hblank c hc
      exact ⟨fun heq => by simp [heq, isSpaceOrTab] at hb, fun heq => by simp [heq, isSpaceOrTab] at hb⟩
  have hdashes : ∀ b : Text, Line.isDashes ⟨"---".toList ++ y.takeWhile isSpaceOrTab, b⟩ := fun b =>
    isDashes_iff.2 ⟨_, rfl, hblank⟩
  rw [ht]
  rcases hx with rfl | ⟨r, hx⟩
  · rw [List.append_nil, lines_eq_singleton hplain (by simp)]
    exact ⟨_, _, rfl, hdashes []⟩
  · obtain ⟨b, hb⟩ : ∃ b, lines x = ⟨[], b⟩ :: lines r := by
      unfold afterLineBreak? at hx
      split at hx
      · exact ⟨['\n'], by rw [lines, Option.some.inj hx]⟩
      · exact ⟨['\r', '\n'], by rw [lines, Option.some.inj hx]⟩
      · simp at hx
    rw [lines_append hplain hb, List.append_nil]
    exact ⟨_, _, rfl, hdashes b⟩

/-- A closing line is a first line of dashes. -/
theorem afterClosingLine?_eq (t : Text) :
    afterClosingLine? t = match lines t with
      | [] => none
      | l :: ls => if l.isDashes then some (written ls) else none := by
  cases h : lines t with
  | nil => rw [lines_eq_nil_iff.1 h]; rfl
  | cons l ls =>
    show afterClosingLine? t = if l.isDashes then some (written ls) else none
    split
    · next hl =>
      rw [afterClosingLine?, afterDashes?_of_isDashes h hl]
      rcases lineBreak_cases h with ⟨hb, hls⟩ | hb | hb
      · rw [hb, hls]
        rfl
      · rw [hb]
        rfl
      · rw [hb]
        rfl
    · next hl =>
      refine Option.eq_none_iff_forall_ne_some.2 fun rest hrest => hl ?_
      unfold afterClosingLine? at hrest
      split at hrest
      · next hx =>
        obtain ⟨l', ls', h', hl'⟩ := exists_lines_of_afterDashes? hx (Or.inl rfl)
        rw [h, List.cons.injEq] at h'
        exact h'.1 ▸ hl'
      · next x _ hx =>
        obtain ⟨l', ls', h', hl'⟩ := exists_lines_of_afterDashes? hx (Or.inr ⟨rest, hrest⟩)
        rw [h, List.cons.injEq] at h'
        exact h'.1 ▸ hl'
      · simp at hrest

/-- An opening line is a first line of dashes with a line break. -/
theorem afterOpeningLine?_eq (t : Text) :
    afterOpeningLine? t = match lines t with
      | [] => none
      | l :: ls => if l.isDashes && l.lineBreak ≠ [] then some (written ls) else none := by
  cases h : lines t with
  | nil => rw [lines_eq_nil_iff.1 h]; rfl
  | cons l ls =>
    show afterOpeningLine? t = if l.isDashes && l.lineBreak ≠ [] then some (written ls) else none
    by_cases hl : l.isDashes
    · rw [afterOpeningLine?, afterDashes?_of_isDashes h hl]
      rcases lineBreak_cases h with ⟨hb, hls⟩ | hb | hb
      · rw [hb, hls, if_neg (by simp)]
        rfl
      · rw [hb, if_pos (by simp [hl])]
        rfl
      · rw [hb, if_pos (by simp [hl])]
        rfl
    · rw [if_neg (by simp [hl])]
      refine Option.eq_none_iff_forall_ne_some.2 fun rest hrest => hl ?_
      obtain ⟨x, hx, hbreak⟩ := Option.bind_eq_some_iff.1 hrest
      obtain ⟨l', ls', h', hl'⟩ := exists_lines_of_afterDashes? hx (Or.inr ⟨rest, hbreak⟩)
      rw [h, List.cons.injEq] at h'
      exact h'.1 ▸ hl'

/-! ## The end of the header -/

/-- The line of dashes that closes a header, and what follows it, where the header has the lines `ls`. -/
def closed? (first : Line) (ls : List Line) : Option (Text × Text) :=
  match ls.dropWhile (!·.isDashes) with
  | [] => none
  | _closing :: body => some (between (first :: ls.takeWhile (!·.isDashes)), written body)

/-- A line of dashes ends the header; any other line is a part of it. -/
theorem closed?_cons (first : Line) (l : Line) (ls : List Line) :
    closed? first (l :: ls) =
      if l.isDashes then some (first.text, written ls)
      else (closed? l ls).map fun (header, rest) => (first.text ++ first.lineBreak ++ header, rest) := by
  unfold closed?
  by_cases hl : l.isDashes
  · simp [hl, between]
  · rw [List.dropWhile_cons_of_pos (by simp [hl]), List.takeWhile_cons_of_pos (by simp [hl]), if_neg hl]
    cases ls.dropWhile (!·.isDashes) <;> simp [between]

theorem closed?_prepend (u : Text) (first : Line) (ls : List Line) :
    closed? ⟨u ++ first.text, first.lineBreak⟩ ls =
      (closed? first ls).map fun (header, rest) => (u ++ header, rest) := by
  unfold closed?
  cases ls.dropWhile (!·.isDashes) with
  | nil => rfl
  | cons l ls' => cases ls.takeWhile (!·.isDashes) <;> simp [between]

/-- Behind a line break the header ends at once, or it goes on. -/
private theorem headerLines?_lineBreak (h : afterLineBreak? (c :: t) = some r) :
    headerLines? (c :: t) = match lines r with
      | [] => (headerLines? t).map fun (header, rest) => (c :: header, rest)
      | l :: ls => if l.isDashes then some ([], written ls)
        else (headerLines? t).map fun (header, rest) => (c :: header, rest) := by
  rw [headerLines?, h, Option.bind_some, afterClosingLine?_eq]
  cases lines r with
  | nil => rfl
  | cons l ls => by_cases hl : l.isDashes <;> simp [hl]

private theorem afterLineBreak?_of_ne (hn : c ≠ '\n') (hr : ∀ r', c = '\r' → r ≠ '\n' :: r') :
    afterLineBreak? (c :: r) = none := by
  unfold afterLineBreak?
  split <;> simp_all

/-- The header ends in front of the first line of dashes behind its own first line. -/
theorem headerLines?_eq (t : Text) :
    headerLines? t = match lines t with
      | [] => none
      | l :: ls => closed? l ls := by
  fun_induction lines t with
  | case1 => rfl
  | case2 r ih =>
    rw [headerLines?_lineBreak (r := r) rfl, ih]
    cases lines r with
    | nil => rfl
    | cons l ls =>
      show _ = closed? ⟨[], ['\n']⟩ (l :: ls)
      rw [closed?_cons]
      rfl
  | case3 r ih =>
    rw [headerLines?_lineBreak (r := r) rfl, headerLines?_lineBreak (r := r) rfl, ih]
    cases lines r with
    | nil => rfl
    | cons l ls =>
      show _ = closed? ⟨[], ['\r', '\n']⟩ (l :: ls)
      rw [closed?_cons]
      by_cases hl : l.isDashes
      · simp [hl]
      · simp [hl, Function.comp_def]
  | case4 c r hn hr h ih =>
    rw [headerLines?, afterLineBreak?_of_ne hn hr, Option.bind_none, ih, h]
    rfl
  | case5 c r hn hr l ls h ih =>
    rw [headerLines?, afterLineBreak?_of_ne hn hr, Option.bind_none, ih, h]
    exact (closed?_prepend [c] l ls).symm

/-- The header begins with its first line. -/
theorem prefix_of_closed? {first : Line} {header body : Text} (h : closed? first ls = some (header, body)) :
    first.text <+: header := by
  unfold closed? at h
  split at h
  · simp at h
  · rw [Option.some.injEq, Prod.mk.injEq] at h
    rw [← h.1]
    cases ls.takeWhile (!·.isDashes) with
    | nil => exact List.prefix_rfl
    | cons m ms =>
      rw [between, List.append_assoc]
      exact List.prefix_append _ _

theorem closed?_eq_none_iff {first : Line} : closed? first ls = none ↔ ∀ l ∈ ls, ¬ l.isDashes := by
  have hdrop : closed? first ls = none ↔ ls.dropWhile (!·.isDashes) = [] := by
    unfold closed?
    cases ls.dropWhile (!·.isDashes) <;> simp
  rw [hdrop, List.dropWhile_eq_nil_iff]
  simp

/-! ## Header and body -/

theorem lines_written (h : lines t = l :: ls) : lines (written ls) = ls := by
  fun_induction lines t generalizing l ls with
  | case1 => simp at h
  | case2 r =>
    rw [List.cons.injEq] at h
    rw [← h.2, written_lines]
  | case3 r =>
    rw [List.cons.injEq] at h
    rw [← h.2, written_lines]
  | case4 c r =>
    rw [List.cons.injEq] at h
    rw [← h.2]
    rfl
  | case5 c r _ _ l' ls' hr ih =>
    rw [List.cons.injEq] at h
    rw [← h.2]
    exact ih hr

/-- Without a line of dashes at the start and a line behind it there is no header. -/
theorem split_eq_none (h : ∀ opening l ls, lines t = opening :: l :: ls → ¬ opening.isDashes) :
    splitHeader t = (none, t) ∧ splitLines t = (none, t) := by
  unfold splitHeader splitLines
  rw [afterOpeningLine?_eq]
  rcases ht : lines t with _ | ⟨opening, _ | ⟨l, ls⟩⟩
  · exact ⟨rfl, rfl⟩
  · by_cases ho : opening.isDashes && opening.lineBreak ≠ []
    · simp only [ho]
      exact ⟨rfl, rfl⟩
    · simp only [ho]
      exact ⟨rfl, rfl⟩
  · simp [h opening l ls ht]

variable {opening : Line}

/-- Only the last line may lack its line break. -/
private theorem opens_of_lines (h : lines t = opening :: l :: ls) (ho : opening.isDashes) :
    (opening.isDashes && decide (opening.lineBreak ≠ [])) = true := by
  rcases lineBreak_cases h with ⟨-, hls⟩ | hb | hb
  · simp at hls
  · simp [ho, hb]
  · simp [ho, hb]

/-- The first line behind the opening one belongs to the header if a line of dashes follows, also when it is
one itself. -/
theorem splitHeader_of_lines (h : lines t = opening :: l :: ls) (ho : opening.isDashes) :
    splitHeader t = match closed? l ls with
      | some (header, body) => (some header, body)
      | none => if l.isDashes then (some [], written ls) else (none, t) := by
  have hopening : afterOpeningLine? t = some (written (l :: ls)) := by
    rw [afterOpeningLine?_eq, h]
    exact if_pos (opens_of_lines h ho)
  have hheader : headerLines? (written (l :: ls)) = closed? l ls := by
    rw [headerLines?_eq, lines_written h]
  have hclosing : afterClosingLine? (written (l :: ls)) =
      if l.isDashes then some (written ls) else none := by
    rw [afterClosingLine?_eq, lines_written h]
  unfold splitHeader
  simp only [hopening, hheader, hclosing]
  cases closed? l ls with
  | some d => rfl
  | none => by_cases hl : l.isDashes <;> simp [hl]

/-- By lines, a line of dashes ends the header wherever it stands. -/
theorem splitLines_of_lines (h : lines t = opening :: l :: ls) (ho : opening.isDashes) :
    splitLines t = if l.isDashes then (some [], written ls) else match closed? l ls with
      | some (header, body) => (some header, body)
      | none => (none, t) := by
  unfold splitLines
  simp only [h, if_pos (opens_of_lines h ho)]
  by_cases hl : l.isDashes
  · simp [hl, between]
  · rw [if_neg hl, List.dropWhile_cons_of_pos (by simp [hl]), List.takeWhile_cons_of_pos (by simp [hl])]
    unfold closed?
    cases ls.dropWhile (!·.isDashes) <;> rfl

/-- An empty header with a line of dashes behind it and another one in the body. -/
def IsClosedTwice (t : Text) : Prop :=
  match lines t with
  | opening :: closing :: ls => opening.isDashes ∧ closing.isDashes ∧ ∃ l ∈ ls, l.isDashes
  | _ => False

/-- The header is found as it is by lines, unless it is empty and a line of dashes stands in the body. Then the
body up to that line, with the one that closes the header, is taken for the header. -/
theorem splitHeader_eq_splitLines_iff (t : Text) :
    splitHeader t = splitLines t ↔ ¬ IsClosedTwice t := by
  by_cases h : ∃ opening l ls, lines t = opening :: l :: ls ∧ opening.isDashes
  · obtain ⟨opening, l, ls, h, ho⟩ := h
    have htwice : IsClosedTwice t ↔ l.isDashes ∧ closed? l ls ≠ none := by
      unfold IsClosedTwice
      simp [h, ho, closed?_eq_none_iff]
    rw [splitHeader_of_lines h ho, splitLines_of_lines h ho, htwice]
    by_cases hl : l.isDashes
    · cases hc : closed? l ls with
      | none => simp [hl]
      | some d =>
        -- the header begins with the dashes of the line that closed it
        have hne : d.1 ≠ [] := by
          obtain ⟨u, hu, -⟩ := isDashes_iff.1 hl
          have hprefix := prefix_of_closed? hc
          intro hnil
          rw [hnil, List.prefix_nil, hu] at hprefix
          simp at hprefix
        simp [hl, hne]
    · cases closed? l ls <;> simp [hl]
  · have hnone := split_eq_none (t := t) fun opening l ls ht ho => h ⟨opening, l, ls, ht, ho⟩
    have htwice : ¬ IsClosedTwice t := by
      unfold IsClosedTwice
      split
      · next opening l ls ht => exact fun hd => h ⟨opening, l, ls, ht, hd.1⟩
      · exact id
    rw [hnone.1, hnone.2]
    exact iff_of_true rfl htwice

/-- A rule of dashes in the body of a document with an empty header. -/
theorem splitHeader_swallows_body :
    splitHeader "---\n---\nBody\n---\nrest".toList = (some "---\nBody".toList, "rest".toList) ∧
      splitLines "---\n---\nBody\n---\nrest".toList = (some [], "Body\n---\nrest".toList) := by
  decide

end Pagewright.Header
