import Pagewright.Proofs.Template.TagText

/-!
# The opening tags of a document

`openTags` lists the opening tags of a name from left to right, whether they are ever closed or not. The tags of a
document are those of its pieces: an element has its own tag and those of its body (`openTags_eq_flatMap_pieces`).
A body is a document of its own, and it has no other tags in there than it has as a part of the whole, because no tag
goes beyond the body that it begins in.
-/

namespace Pagewright

/-- The opening tags of a name in a document. What looks like a tag inside of another tag is none. -/
def openTags (name : Text) : Text → List OpenTag
  | [] => []
  | c :: r =>
    if c = '<' then
      match _ho : Element.afterOpening? name r with
      | none => openTags name r
      | some tail =>
        match _ht : OpenTag.parse? tail with
        | none => openTags name tail
        | some (tag, rest) => tag :: openTags name rest
    else openTags name r
termination_by t => t.length
decreasing_by
  all_goals simp_wf
  · have := (Element.suffix_of_afterOpening? _ho).length_le
    omega
  · have := (Element.suffix_of_afterOpening? _ho).length_le
    have := (OpenTag.suffix_of_parse? _ht).length_le
    omega

variable {name t u o r x before body closing tail rest : Text} {e : Element} {tag : OpenTag} {c : Char} {depth : Nat}

/-! ## Steps -/

theorem openTags_nil (name : Text) : openTags name [] = [] := by rw [openTags]

theorem openTags_cons_of_ne (h : c ≠ '<') (r : Text) : openTags name (c :: r) = openTags name r := by
  rw [openTags, if_neg h]

theorem openTags_append_of_notMem (h : '<' ∉ u) (r : Text) : openTags name (u ++ r) = openTags name r := by
  induction u with
  | nil => rfl
  | cons c u ih =>
    rw [List.mem_cons, not_or] at h
    rw [List.cons_append, openTags_cons_of_ne (Ne.symm h.1), ih h.2]

theorem openTags_of_afterOpening?_eq_none (h : Element.afterOpening? name r = none) :
    openTags name ('<' :: r) = openTags name r := by
  rw [openTags, if_pos rfl]
  split
  · rfl
  · next hsome => rw [h] at hsome; cases hsome

/-- A tag that does not end is passed over, but only its name. -/
theorem openTags_of_parse?_eq_none (ho : Element.afterOpening? name r = some tail)
    (ht : OpenTag.parse? tail = none) : openTags name ('<' :: r) = openTags name tail := by
  rw [openTags, if_pos rfl]
  split
  · next hnone => rw [ho] at hnone; cases hnone
  · next tail' hsome =>
    obtain rfl : tail = tail' := Option.some.inj (ho.symm.trans hsome)
    split
    · rfl
    · next hsome => rw [ht] at hsome; cases hsome

theorem Element.IsOpening.openTags_append (h : IsOpening name o tag) (r : Text) :
    openTags name ('<' :: (o ++ r)) = tag :: openTags name r := by
  obtain ⟨tail, ho, ht⟩ := h r
  rw [openTags, if_pos rfl]
  split
  · next hnone => rw [ho] at hnone; cases hnone
  · next tail' hsome =>
    obtain rfl : tail = tail' := Option.some.inj (ho.symm.trans hsome)
    split
    · next hnone => rw [ht] at hnone; cases hnone
    · next tag' rest hsome =>
      obtain ⟨rfl, rfl⟩ := Prod.mk.inj (Option.some.inj (ht.symm.trans hsome))
      rfl

/-- A closing tag is no opening tag, and there is none in it. -/
theorem openTags_closing {closing : WrittenEnd} (hname : Element.IsName name) (h : closing.Proper name) (r : Text) :
    openTags name ('<' :: (closing.text ++ r)) = openTags name r := by
  obtain ⟨hsame, hgap⟩ := h
  have hnone : Element.afterOpening? name (closing.text ++ r) = none := by
    cases hread : Element.afterOpening? name (closing.text ++ r) with
    | none => rfl
    | some tail =>
      exfalso
      obtain ⟨written, htext, hsame⟩ := Element.exists_of_afterOpening? hread
      have hne : written ≠ [] := fun hnil =>
        hname.1 (List.length_eq_zero_iff.1 (by rw [← Text.length_eq_of_same hsame, hnil]; rfl))
      obtain ⟨c, s, rfl⟩ := List.exists_cons_of_ne_nil hne
      obtain rfl : '/' = c := (List.cons.inj htext).1
      exact Element.notMem_of_same hname.2 hsame (by decide) List.mem_cons_self
  have hopen : '<' ∉ closing.text := by
    have hgap : '<' ∉ closing.gap := fun hmem => absurd (hgap '<' hmem) (by decide)
    simp [WrittenEnd.text, hgap, Element.notMem_of_same hname.2 hsame]
  rw [openTags_of_afterOpening?_eq_none hnone, openTags_append_of_notMem hopen]

/-! ## A text that ends in front of a tag -/

/-- A name that ends in the text is followed by a character of it: no name is followed by a `<`. -/
theorem Element.afterOpening?_of_append (h : afterOpening? name (u ++ (body ++ '<' :: x)) = some (body ++ '<' :: x)) :
    afterOpening? name (u ++ body) = some body := by
  obtain ⟨hread, c, hc, hends⟩ := afterOpening?_eq_some_iff.1 h
  obtain ⟨w, htext, hsame⟩ := exists_of_afterName? hread
  obtain rfl := List.append_cancel_right htext
  refine afterOpening?_eq_some_iff.2 ⟨afterName?_of_same (Text.sameIgnoringAsciiCase_iff.2 hsame) body, ?_⟩
  cases body with
  | nil =>
    obtain rfl : '<' = c := Option.some.inj hc
    exact absurd hends (by decide)
  | cons d body => exact ⟨c, hc, hends⟩

theorem Element.afterOpening?_eq_none_of_append (h : afterOpening? name (u ++ x) = none) : afterOpening? name u = none := by
  cases hread : afterOpening? name u with
  | none => rfl
  | some tail => rw [afterOpening?_append hread] at h; cases h

theorem OpenTag.parse?_eq_none_of_append (h : parse? (u ++ x) = none) : parse? u = none := by
  cases hread : parse? u with
  | none => rfl
  | some found =>
    exfalso
    obtain ⟨w, rfl, hw⟩ := exists_tagText hread
    rw [List.append_assoc] at h
    exact Option.some_ne_none _ ((hw.reads _).symm.trans h)

theorem openTags_unparsed (ho : Element.afterOpening? name (u ++ (body ++ '<' :: x)) = some (body ++ '<' :: x))
    (ht : OpenTag.parse? (body ++ '<' :: x) = none) : openTags name ('<' :: (u ++ body)) = openTags name body :=
  openTags_of_parse?_eq_none (Element.afterOpening?_of_append ho) (OpenTag.parse?_eq_none_of_append ht)

/-! ## Elements -/

/-- The text up to a closing tag and the text behind it have the opening tags of the whole. -/
theorem openTags_of_closing? (hname : Element.IsName name)
    (h : Element.closing? name depth t = some (body, closing, rest)) :
    openTags name t = openTags name body ++ openTags name rest := by
  fun_induction Element.closing? name depth t generalizing body with
  | case1 => cases h
  | case2 r rest' hc =>
    obtain ⟨written, hwritten, rfl⟩ := Element.exists_of_afterClosing? hc
    simp only [Option.some.injEq, Prod.mk.injEq] at h
    obtain ⟨rfl, -, rfl⟩ := h
    rw [openTags_closing hname hwritten, openTags_nil]
    rfl
  | case3 depth r rest' hc _ ih =>
    obtain ⟨b, hb, rfl⟩ := Element.of_map_prepend h
    obtain ⟨written, hwritten, rfl⟩ := Element.exists_of_afterClosing? hc
    rw [Text.consumed_cons_append, List.cons_append,
      openTags_closing hname hwritten, openTags_closing hname hwritten]
    exact ih hb
  | case4 depth r _ tail ho tag rest' ht ih =>
    obtain ⟨b, hb, rfl⟩ := Element.of_map_prepend h
    obtain ⟨o, rfl, hopen⟩ := Element.exists_isOpening ho ht
    rw [Text.consumed_cons_append, List.cons_append,
      hopen.openTags_append, hopen.openTags_append, ih hb, List.cons_append]
  | case5 depth r _ tail ho ht ih =>
    obtain ⟨b, hb, rfl⟩ := Element.of_map_prepend h
    obtain ⟨written, -, rfl⟩ := Element.exists_of_closing? hb
    have htail : tail = b ++ '<' :: (written.text ++ rest) := by simpa using Element.eq_append_of_closing? hb
    obtain ⟨u, rfl⟩ := Element.suffix_of_afterOpening? ho
    rw [openTags_of_parse?_eq_none ho ht, ih hb, Text.consumed_cons_append, List.cons_append,
      openTags_unparsed (htail ▸ ho) (htail ▸ ht)]
  | case6 depth r _ ho ih =>
    obtain ⟨b, hb, rfl⟩ := Element.of_map_prepend h
    have hr : r = b ++ (closing ++ rest) := by simpa using Element.eq_append_of_closing? hb
    rw [openTags_of_afterOpening?_eq_none ho, ih hb, List.singleton_append,
      openTags_of_afterOpening?_eq_none (Element.afterOpening?_eq_none_of_append (hr ▸ ho))]
  | case7 depth c r hc ih =>
    obtain ⟨b, hb, rfl⟩ := Element.of_map_prepend h
    rw [openTags_cons_of_ne hc, List.singleton_append, openTags_cons_of_ne hc]
    exact ih hb

/-- An element has its own tag and those of its body. -/
theorem openTags_of_find? (hname : Element.IsName name) (h : Element.find? name t = some (before, e, rest)) :
    openTags name t = openTags name before ++ e.openTag :: (openTags name e.body ++ openTags name rest) := by
  fun_induction Element.find? name t generalizing before with
  | case1 => cases h
  | case2 r ho ih =>
    obtain ⟨b, hb, rfl⟩ := Element.of_map_prepend h
    have hr : r = b ++ (e.text ++ rest) := by simpa using Element.eq_append_of_find? hb
    rw [openTags_of_afterOpening?_eq_none ho, ih hb, List.singleton_append,
      openTags_of_afterOpening?_eq_none (Element.afterOpening?_eq_none_of_append (hr ▸ ho))]
  | case3 r tail ho ht ih =>
    obtain ⟨b, hb, rfl⟩ := Element.of_map_prepend h
    obtain ⟨x, hx⟩ : ∃ x, e.text = '<' :: x := (Element.isScanned_of_find? hb).exists_text
    have htail : tail = b ++ '<' :: (x ++ rest) := by simpa [hx] using Element.eq_append_of_find? hb
    obtain ⟨u, rfl⟩ := Element.suffix_of_afterOpening? ho
    rw [openTags_of_parse?_eq_none ho ht, ih hb, Text.consumed_cons_append, List.cons_append,
      openTags_unparsed (htail ▸ ho) (htail ▸ ht)]
  | case4 r tail ho tag rest' ht hself =>
    obtain ⟨o, rfl, hopen⟩ := Element.exists_isOpening ho ht
    simp only [Option.some.injEq, Prod.mk.injEq] at h
    obtain ⟨rfl, rfl, rfl⟩ := h
    obtain ⟨attributes, selfClosing⟩ := tag
    obtain rfl : selfClosing = true := hself
    show _ = openTags name [] ++ ⟨attributes, true⟩ :: (openTags name [] ++ openTags name rest')
    rw [hopen.openTags_append, openTags_nil]
    rfl
  | case5 r tail ho tag rest' ht hself body closing after hclosing =>
    obtain ⟨o, rfl, hopen⟩ := Element.exists_isOpening ho ht
    simp only [Option.some.injEq, Prod.mk.injEq] at h
    obtain ⟨rfl, rfl, rfl⟩ := h
    obtain ⟨attributes, selfClosing⟩ := tag
    obtain rfl : selfClosing = false := Bool.eq_false_iff.2 hself
    show _ = openTags name [] ++ ⟨attributes, false⟩ :: (openTags name body ++ openTags name after)
    rw [hopen.openTags_append, openTags_nil, openTags_of_closing? hname hclosing]
    rfl
  | case6 r tail ho tag rest' ht hself hclosing ih =>
    obtain ⟨b, hb, rfl⟩ := Element.of_map_prepend h
    obtain ⟨o, rfl, hopen⟩ := Element.exists_isOpening ho ht
    rw [Text.consumed_cons_append, List.cons_append,
      hopen.openTags_append, hopen.openTags_append, ih hb, List.cons_append]
  | case7 c r hc ih =>
    obtain ⟨b, hb, rfl⟩ := Element.of_map_prepend h
    rw [openTags_cons_of_ne hc, List.singleton_append, openTags_cons_of_ne hc]
    exact ih hb

/-! ## Pieces -/

/-- The opening tags of a piece of a document. -/
def Piece.openTags (name : Text) : Piece → List OpenTag
  | text t => Pagewright.openTags name t
  | element e => e.openTag :: Pagewright.openTags name e.body

theorem openTags_eq_flatMap_pieces (hname : Element.IsName name) (t : Text) :
    openTags name t = (pieces name t).flatMap (Piece.openTags name) := by
  fun_induction pieces name t with
  | case1 t hfind => simp [Piece.openTags]
  | case2 t before e rest hfind ih =>
    rw [openTags_of_find? hname hfind, ih]
    simp [Piece.openTags]

end Pagewright
