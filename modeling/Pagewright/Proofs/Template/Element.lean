import Pagewright.Proofs.Text.Character
import Pagewright.Proofs.Text.Occurrence
import Pagewright.Template.Element

/-!
# Elements, read and counted

Reading a tag back that was written with quoted attributes, the elements of a text that was put together
from parts, and the number of `<` in an element, which is greater than in its body.
-/

namespace Pagewright

/-! ## Tags -/

namespace OpenTag

variable {read : Attributes} {name value t rest : Text} {c : Char}

theorem parseFrom_blank (h : Text.isBlank c) : parseFrom read (c :: rest) = parseFrom read rest := by
  rw [parseFrom.eq_def]
  exact if_pos h

theorem parseFrom_end : parseFrom read ('>' :: rest) = some (⟨read, false⟩, rest) := by
  rw [parseFrom.eq_def]
  exact (if_neg (by decide)).trans (if_pos rfl)

theorem parseFrom_selfClosing : parseFrom read ('/' :: '>' :: rest) = some (⟨read, true⟩, rest) := by
  rw [parseFrom.eq_def]
  exact (if_neg (by decide)).trans ((if_neg (by decide)).trans (if_pos rfl))

/-- Names of attributes as pages write them: they begin like no end of a tag. -/
structure IsName (name : Text) : Prop where
  chars : ∀ c ∈ name, isNameChar c
  head : ∃ c s, name = c :: s ∧ Text.isBlank c = false ∧ c ≠ '>' ∧ c ≠ '/'

theorem isNameChar_of_isBlank (h : Text.isBlank c) : isNameChar c = false := by
  have hne : c ≠ '_' ∧ c ≠ '-' ∧ c ≠ ':' := by
    refine ⟨?_, ?_, ?_⟩ <;> rintro rfl <;> exact absurd h (by decide)
  simp [isNameChar, Text.isAlphanumeric_of_isBlank h, hne]

/-- A name ends where no further character of a name stands. What is behind it, white space aside, decides whether
there is a value. -/
private theorem parseFrom_name (hname : IsName name) (ht : ∀ d ∈ t.head?, isNameChar d = false) :
    parseFrom read (name ++ t) =
      match Text.trimStart t with
      | [] => none
      | d :: r =>
        if d = '=' then
          match attributeValue? (Text.trimStart r) with
          | none => none
          | some (value, rest) => parseFrom (read.put name value) rest
        else parseFrom (read.put name []) (d :: r) := by
  obtain ⟨c, s, rfl, hb, hgt, hslash⟩ := hname.head
  have hc : isNameChar c := hname.chars c List.mem_cons_self
  have hs : ∀ d ∈ s, isNameChar d := fun d hd => hname.chars d (List.mem_cons_of_mem c hd)
  have htake : (s ++ t).takeWhile isNameChar = s := by
    rw [List.takeWhile_append_of_pos hs]
    cases t with
    | nil => simp
    | cons d t => rw [List.takeWhile_cons_of_neg (by simp [ht d rfl]), List.append_nil]
  have hdrop : (s ++ t).dropWhile isNameChar = t := by
    rw [List.dropWhile_append_of_pos hs]
    cases t with
    | nil => rfl
    | cons d t => rw [List.dropWhile_cons_of_neg (by simp [ht d rfl])]
  -- the equation as a whole: taking it apart case by case is slow
  rw [List.cons_append, parseFrom.eq_def]
  simp only [htake]
  rw [if_neg (by simp [hb]), if_neg hgt, if_neg (by simp [hslash]), if_pos hc]
  split
  · next h => rw [hdrop] at h; rw [h]
  · next d r h =>
    rw [hdrop] at h
    rw [h]
    dsimp only
    split
    · split
      · next hv => rw [hv]
      · next hv => rw [hv]
    · rfl

/-- An attribute with a value behind its `=`. -/
theorem parseFrom_valued {r : Text} (hname : IsName name) (ht : Text.trimStart t = '=' :: r)
    (hvalue : attributeValue? (Text.trimStart r) = some (value, rest)) :
    parseFrom read (name ++ t) = parseFrom (read.put name value) rest := by
  have hhead : ∀ d ∈ t.head?, isNameChar d = false := by
    intro d hd
    obtain ⟨u, rfl⟩ := List.head?_eq_some_iff.1 hd
    by_cases hb : Text.isBlank d
    · exact isNameChar_of_isBlank hb
    · rw [Text.trimStart, List.dropWhile_cons_of_neg hb, List.cons.injEq] at ht
      rw [ht.1]
      decide +kernel
  rw [parseFrom_name hname hhead, ht]
  dsimp only
  rw [if_pos rfl, hvalue]

/-- An attribute without a value. -/
theorem parseFrom_bare {d : Char} {r : Text} (hname : IsName name) (ht : ∀ d ∈ t.head?, isNameChar d = false)
    (htrim : Text.trimStart t = d :: r) (hd : d ≠ '=') :
    parseFrom read (name ++ t) = parseFrom (read.put name []) (Text.trimStart t) := by
  rw [parseFrom_name hname ht, htrim]
  exact if_neg hd

/-- An attribute with its value in quotes, of one kind or the other, is read back. -/
theorem parseFrom_quoted {q : Char} (hq : q = '"' ∨ q = '\'') (hname : IsName name) (hv : q ∉ value) :
    parseFrom read (name ++ '=' :: q :: (value ++ q :: rest)) = parseFrom (read.put name value) rest := by
  have hblank : ¬ Text.isBlank q := by rcases hq with rfl | rfl <;> decide
  have htrim : Text.trimStart ('=' :: q :: (value ++ q :: rest)) = '=' :: q :: (value ++ q :: rest) :=
    List.dropWhile_cons_of_neg (by decide)
  apply parseFrom_valued hname htrim
  rw [Text.trimStart, List.dropWhile_cons_of_neg hblank, attributeValue?, if_pos (by simpa using hq),
    Text.splitOnce?_append hv]

theorem parseFrom_attribute (hname : IsName name) (hv : '"' ∉ value) :
    parseFrom read (name ++ "=\"".toList ++ value ++ '"' :: rest) =
      parseFrom (read.put name value) rest := by
  have htext : name ++ "=\"".toList ++ value ++ '"' :: rest =
      name ++ '=' :: '"' :: (value ++ '"' :: rest) := by simp
  rw [htext, parseFrom_quoted (Or.inl rfl) hname hv]

end OpenTag

/-! ## Elements of a text in parts -/

namespace Element

variable {name a t r rest tail before body closing after : Text} {c : Char} {depth : Nat}

theorem map_prepend_nil {α : Type} (found : Option (Text × α)) : found.map (prepend []) = found := by
  have hid : prepend (α := α) [] = id := rfl
  rw [hid, Option.map_id]
  rfl

theorem prepend_comp {α : Type} (u v : Text) : prepend (α := α) u ∘ prepend v = prepend (u ++ v) := by
  funext found
  simp [prepend]

/-- What is read as a name is written like the name. -/
theorem exists_of_afterName? (h : afterName? name t = some r) :
    ∃ w, t = w ++ r ∧ w.map Text.asciiLower = name.map Text.asciiLower := by
  induction name generalizing t with
  | nil => exact ⟨[], by simpa [afterName?] using h, rfl⟩
  | cons d name ih =>
    cases t with
    | nil => simp [afterName?] at h
    | cons c t =>
      rw [afterName?] at h
      split at h
      · next heq =>
        obtain ⟨w, rfl, hw⟩ := ih h
        exact ⟨c :: w, rfl, by simp [hw, heq]⟩
      · cases h

/-- A text that does not begin with the name, in front of a character that the name does not have. -/
theorem afterName?_append_eq_none (h : ¬ name.map Text.asciiLower <+: t.map Text.asciiLower)
    (hr : ∀ d ∈ r.head?, Text.asciiLower d ∉ name.map Text.asciiLower) : afterName? name (t ++ r) = none := by
  cases hread : afterName? name (t ++ r) with
  | none => rfl
  | some rest =>
    exfalso
    obtain ⟨w, hw, hlower⟩ := exists_of_afterName? hread
    rcases List.append_eq_append_iff.1 hw with ⟨v, rfl, hv⟩ | ⟨v, rfl, -⟩
    · -- what was read reaches into `r`, unless it is the text
      cases v with
      | nil =>
        apply h
        rw [← hlower, List.append_nil]
      | cons d v =>
        have hd : Text.asciiLower d ∈ name.map Text.asciiLower := by
          rw [← hlower]
          simp
        exact hr d (by simp [hv]) hd
    · apply h
      rw [← hlower, List.map_append]
      exact List.prefix_append _ _

theorem find?_cons_of_ne (h : c ≠ '<') : find? name (c :: r) = (find? name r).map (prepend [c]) := by
  rw [find?, if_neg h]

theorem find?_nil (name : Text) : find? name [] = none := by rw [find?]

/-- Without a `<` there is no element. -/
theorem find?_eq_none_of_notMem (h : '<' ∉ t) : find? name t = none := by
  induction t with
  | nil => exact find?_nil name
  | cons c t ih =>
    simp only [List.mem_cons, not_or] at h
    rw [find?_cons_of_ne (Ne.symm h.1), ih h.2]
    rfl

theorem find?_of_afterOpening?_eq_none (h : afterOpening? name r = none) :
    find? name ('<' :: r) = (find? name r).map (prepend ['<']) := by
  rw [find?, if_pos rfl]
  split
  · rfl
  · next hsome => rw [h] at hsome; cases hsome

/-- An opening tag at the start of a text: it is an element by itself, or begins one if its closing tag is found, and
is passed over otherwise. -/
theorem find?_of_parse? {tag : OpenTag} (ho : afterOpening? name r = some tail)
    (ht : OpenTag.parse? tail = some (tag, rest)) :
    find? name ('<' :: r) =
      if tag.selfClosing then some ([], ⟨Text.consumed ('<' :: r) rest, tag.attributes, none⟩, rest)
      else (closing? name 0 rest).elim ((find? name rest).map (prepend (Text.consumed ('<' :: r) rest))) fun found =>
        some ([], ⟨Text.consumed ('<' :: r) rest, tag.attributes, some (found.1, found.2.1)⟩, found.2.2) := by
  rw [find?, if_pos rfl]
  split
  · next hnone => rw [ho] at hnone; cases hnone
  · next tail' hsome =>
    obtain rfl : tail = tail' := Option.some.inj (ho.symm.trans hsome)
    split
    · next hnone => rw [ht] at hnone; cases hnone
    · next tag' rest' hsome =>
      obtain ⟨rfl, rfl⟩ := Prod.mk.inj (Option.some.inj (ht.symm.trans hsome))
      cases closing? name 0 rest <;> rfl

/-- An element at the start of a text: its opening tag is read, and its closing tag is found. -/
theorem find?_of_closing? {tag : OpenTag} (ho : afterOpening? name r = some tail)
    (ht : OpenTag.parse? tail = some (tag, rest)) (hs : tag.selfClosing = false)
    (hc : closing? name 0 rest = some (body, closing, after)) :
    find? name ('<' :: r) =
      some ([], ⟨Text.consumed ('<' :: r) rest, tag.attributes, some (body, closing)⟩, after) := by
  rw [find?_of_parse? ho ht, if_neg (by simp [hs]), hc]
  rfl

theorem closing?_nil (name : Text) (depth : Nat) : closing? name depth [] = none := by rw [closing?]

theorem closing?_cons_of_ne (h : c ≠ '<') :
    closing? name depth (c :: r) = (closing? name depth r).map (prepend [c]) := by
  rw [closing?, if_neg h]

/-- The closing tag is looked for behind a text without a `<`. -/
theorem closing?_append_of_notMem (h : '<' ∉ a) (t : Text) :
    closing? name depth (a ++ t) = (closing? name depth t).map (prepend a) := by
  induction a with
  | nil => exact (map_prepend_nil _).symm
  | cons c a ih =>
    simp only [List.mem_cons, not_or] at h
    rw [List.cons_append, closing?_cons_of_ne (Ne.symm h.1), ih h.2, Option.map_map]
    rfl

theorem closing?_of_afterClosing? (h : afterClosing? name r = some rest) (depth : Nat) :
    closing? name depth ('<' :: r) =
      if depth = 0 then some ([], Text.consumed ('<' :: r) rest, rest)
      else (closing? name (depth - 1) rest).map (prepend (Text.consumed ('<' :: r) rest)) := by
  rw [closing?, if_pos rfl]
  split
  · next rest' hsome =>
    obtain rfl : rest = rest' := Option.some.inj (h.symm.trans hsome)
    rfl
  · next hnone => rw [h] at hnone; cases hnone

theorem closing?_of_afterOpening?_eq_none (hc : afterClosing? name r = none) (ho : afterOpening? name r = none)
    (depth : Nat) : closing? name depth ('<' :: r) = (closing? name depth r).map (prepend ['<']) := by
  rw [closing?, if_pos rfl]
  split
  · next hsome => rw [hc] at hsome; cases hsome
  · split
    · next hsome => rw [ho] at hsome; cases hsome
    · rfl

/-- An opening tag is passed over, and counted unless it closes itself. -/
theorem closing?_of_parse? {tag : OpenTag} (hc : afterClosing? name r = none) (ho : afterOpening? name r = some tail)
    (ht : OpenTag.parse? tail = some (tag, rest)) (depth : Nat) :
    closing? name depth ('<' :: r) =
      (closing? name (if tag.selfClosing then depth else depth + 1) rest).map
        (prepend (Text.consumed ('<' :: r) rest)) := by
  rw [closing?, if_pos rfl]
  split
  · next hsome => rw [hc] at hsome; cases hsome
  · split
    · next tail' hsome =>
      obtain rfl : tail = tail' := Option.some.inj (ho.symm.trans hsome)
      split
      · next tag' rest' hsome =>
        obtain ⟨rfl, rfl⟩ := Prod.mk.inj (Option.some.inj (ht.symm.trans hsome))
        rfl
      · next hnone => rw [ht] at hnone; cases hnone
    · next hnone => rw [ho] at hnone; cases hnone

/-! ## Counting -/

theorem consumed_cons (h : rest <:+ r) : Text.consumed (c :: r) rest = c :: Text.consumed r rest := by
  have hlen := h.length_le
  rw [Text.consumed, Text.consumed, List.length_cons, Nat.succ_sub hlen, List.take_succ_cons]

/-- An element begins with a `<`. -/
theorem mem_opening_of_find? {e : Element} (h : find? name t = some (before, e, rest)) :
    '<' ∈ e.opening := by
  fun_induction find? name t generalizing before with
  | case1 => simp at h
  | case4 r tail ho tag rest' ht =>
    simp only [Option.some.injEq, Prod.mk.injEq] at h
    obtain ⟨rfl, rfl, rfl⟩ := h
    rw [consumed_cons ((OpenTag.suffix_of_parse? ht).trans (suffix_of_afterOpening? ho))]
    exact List.mem_cons_self
  | case5 r tail ho tag rest' ht =>
    simp only [Option.some.injEq, Prod.mk.injEq] at h
    obtain ⟨rfl, rfl, rfl⟩ := h
    rw [consumed_cons ((OpenTag.suffix_of_parse? ht).trans (suffix_of_afterOpening? ho))]
    exact List.mem_cons_self
  | case2 _ _ ih | case3 _ _ _ _ ih | case6 _ _ _ _ _ _ _ _ ih | case7 _ _ _ ih =>
    obtain ⟨b, hb, _⟩ := of_map_prepend h
    exact ih hb

theorem body_infix_text (e : Element) : e.body <:+: e.text := by
  obtain ⟨opening, attributes, content⟩ := e
  cases content with
  | none => exact List.nil_infix
  | some p => exact List.infix_append opening p.1 p.2

/-- The body of an element has fewer `<` than the element. -/
theorem count_body_lt_of_find? {e : Element} (h : find? name t = some (before, e, rest)) :
    e.body.count '<' < e.text.count '<' := by
  have ho : 0 < e.opening.count '<' := List.count_pos_iff.2 (mem_opening_of_find? h)
  obtain ⟨opening, attributes, content⟩ := e
  cases content with
  | none => simpa [text, body, body?] using ho
  | some p =>
    simp only [text, body, body?, Option.map_some, Option.getD_some, List.count_append] at ho ⊢
    omega

end Element

/-! ## Pieces -/

variable {name t : Text}

theorem pieces_of_find?_eq_none (h : Element.find? name t = none) : pieces name t = [.text t] := by
  rw [pieces]
  split
  · rfl
  · next h' => simp [h] at h'

theorem pieces_of_find? {before rest : Text} {e : Element}
    (h : Element.find? name t = some (before, e, rest)) :
    pieces name t = .text before :: .element e :: pieces name rest := by
  rw [pieces]
  split
  · next h' => simp [h] at h'
  · next h' =>
    rw [h, Option.some.injEq, Prod.mk.injEq, Prod.mk.injEq] at h'
    obtain ⟨rfl, rfl, rfl⟩ := h'
    rfl

/-- The elements of a document are found one after the other. -/
theorem exists_find?_of_mem_pieces {e : Element} (h : .element e ∈ pieces name t) :
    ∃ u before rest, Element.find? name u = some (before, e, rest) := by
  fun_induction pieces name t with
  | case1 => simp at h
  | case2 t before e' rest hf ih =>
    simp only [List.mem_cons, reduceCtorEq, Piece.element.injEq, false_or] at h
    rcases h with rfl | h
    · exact ⟨t, before, rest, hf⟩
    · exact ih h

theorem count_body_lt_of_mem_pieces {e : Element} (h : .element e ∈ pieces name t) :
    e.body.count '<' < e.text.count '<' := by
  fun_induction pieces name t with
  | case1 => simp at h
  | case2 t before e' rest hf ih =>
    simp only [List.mem_cons, reduceCtorEq, Piece.element.injEq, false_or] at h
    rcases h with rfl | h
    · exact Element.count_body_lt_of_find? hf
    · exact ih h

theorem infix_of_mem_pieces {e : Element} (h : .element e ∈ pieces name t) : e.text <:+: t := by
  have ht := flatMap_source_pieces name t
  rw [List.flatMap_def] at ht
  exact ht ▸ List.infix_of_mem_flatten (List.mem_map_of_mem (f := Piece.source) h)

end Pagewright
