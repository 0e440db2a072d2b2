import Pagewright.Template.Tag

/-! # `Template.Element`: directive elements in a document

`find?` looks for the first `<name …>body</name>` or `<name …/>` of a document, `pieces` cuts a
document into its elements and the texts between them. The case of the letters A to Z in the name does
not count, elements of the same name may be nested, and an opening tag that does not end or is never
closed is plain text. A found element is kept as it is written, so that nothing of the document is lost:
the text before it, its own text and the text after it are the document (`eq_append_of_find?`).
-/

namespace Pagewright

/-- An element as it is written. -/
structure Element where
  /-- The text of the opening tag. -/
  opening : Text
  /-- The attributes of the opening tag. -/
  attributes : Attributes
  /-- The body and the text of the closing tag; a self-closing element has neither. -/
  content : Option (Text × Text)
deriving DecidableEq, Inhabited

namespace Element

/-- The body of an element that has one. -/
def body? (e : Element) : Option Text := e.content.map Prod.fst

/-- The body of an element, empty when it is self-closing. -/
def body (e : Element) : Text := e.body?.getD []

/-- The text of an element. -/
def text (e : Element) : Text :=
  match e.content with
  | none => e.opening
  | some (body, closing) => e.opening ++ body ++ closing

/-- The value of an attribute. -/
def attribute? (e : Element) (name : Text) : Option Text := e.attributes.get? name

/-! ## Tags of a name -/

/-- What follows a name at the start of a text, where the case of the letters A to Z does not count. -/
def afterName? : Text → Text → Option Text
  | [], t => some t
  | _ :: _, [] => none
  | p :: ps, c :: r => if Text.asciiLower p = Text.asciiLower c then afterName? ps r else none

/-- What follows the name of an opening tag whose `<` has been read. The name must end there: with a
blank, a slash or the end of the tag. -/
def afterOpening? (name t : Text) : Option Text :=
  match afterName? name t with
  | some (c :: r) => if Text.isBlank c || c = '>' || c = '/' then some (c :: r) else none
  | _ => none

/-- What follows a closing tag whose `<` has been read. -/
def afterClosing? (name : Text) : Text → Option Text
  | '/' :: r =>
    match afterName? name r with
    | some r =>
      match Text.trimStart r with
      | '>' :: rest => some rest
      | _ => none
    | none => none
  | _ => none

theorem suffix_of_afterName? {name t rest : Text} (h : afterName? name t = some rest) :
    rest <:+ t := by
  induction name generalizing t with
  | nil => simp [afterName?] at h; simp [h]
  | cons p ps ih =>
    cases t with
    | nil => simp [afterName?] at h
    | cons c r =>
      simp only [afterName?] at h
      split at h
      · exact (ih h).trans (List.suffix_cons c r)
      · simp at h

theorem suffix_of_afterOpening? {name t rest : Text} (h : afterOpening? name t = some rest) :
    rest <:+ t := by
  unfold afterOpening? at h
  split at h
  · next c r hn =>
    split at h
    · simp at h
      exact h ▸ suffix_of_afterName? hn
    · simp at h
  · simp at h

theorem suffix_of_afterClosing? {name t rest : Text} (h : afterClosing? name t = some rest) :
    rest <:+ t := by
  unfold afterClosing? at h
  split at h
  · next r =>
    split at h
    · next r' hn =>
      split at h
      · next rest' hb =>
        simp at h
        subst h
        have h1 : rest' <:+ Text.trimStart r' := hb ▸ List.suffix_cons _ rest'
        exact h1.trans ((List.dropWhile_suffix _).trans
          ((suffix_of_afterName? hn).trans (List.suffix_cons _ r)))
      · simp at h
    · simp at h
  · simp at h

/-! ## Closing tags -/

/-- Puts a text in front of the first part of a search result. -/
def prepend {α : Type} (head : Text) (found : Text × α) : Text × α := (head ++ found.1, found.2)

theorem of_map_prepend {α : Type} {found : Option (Text × α)} {head before : Text} {x : α}
    (h : found.map (prepend head) = some (before, x)) :
    ∃ before', found = some (before', x) ∧ before = head ++ before' := by
  obtain ⟨⟨b, y⟩, hb, he⟩ := Option.map_eq_some_iff.1 h
  simp [prepend] at he
  exact ⟨b, by rw [hb, he.2], he.1.symm⟩

/-- The closing tag that belongs to an opening tag before the text, where so many further elements are
open: the text before it, the tag itself, the text behind it. -/
def closing? (name : Text) (depth : Nat) : Text → Option (Text × Text × Text)
  | [] => none
  | c :: r =>
    if c = '<' then
      match _hc : afterClosing? name r with
      | some rest =>
        if depth = 0 then some ([], Text.consumed (c :: r) rest, rest)
        else (closing? name (depth - 1) rest).map (prepend (Text.consumed (c :: r) rest))
      | none =>
        match _ho : afterOpening? name r with
        | some tail =>
          match _ht : OpenTag.parse? tail with
          | some (tag, rest) =>
            (closing? name (if tag.selfClosing then depth else depth + 1) rest).map
              (prepend (Text.consumed (c :: r) rest))
          | none => (closing? name depth tail).map (prepend (Text.consumed (c :: r) tail))
        | none => (closing? name depth r).map (prepend [c])
    else (closing? name depth r).map (prepend [c])
termination_by t => t.length
decreasing_by
  all_goals simp_wf
  · have := (suffix_of_afterClosing? _hc).length_le
    omega
  · have := (suffix_of_afterOpening? _ho).length_le
    have := (OpenTag.suffix_of_parse? _ht).length_le
    omega
  · have := (suffix_of_afterOpening? _ho).length_le
    omega

/-! ## Elements -/

/-- The first element of a name in a document: the text before it, the element, the text behind it. -/
def find? (name : Text) : Text → Option (Text × Element × Text)
  | [] => none
  | c :: r =>
    if c = '<' then
      match _ho : afterOpening? name r with
      | none => (find? name r).map (prepend [c])
      | some tail =>
        match _ht : OpenTag.parse? tail with
        | none =>
          (find? name tail).map (prepend (Text.consumed (c :: r) tail))
        | some (tag, rest) =>
          if tag.selfClosing then
            some ([], ⟨Text.consumed (c :: r) rest, tag.attributes, none⟩, rest)
          else
            match closing? name 0 rest with
            | some (body, closing, after) =>
              some ([], ⟨Text.consumed (c :: r) rest, tag.attributes, some (body, closing)⟩, after)
            | none => (find? name rest).map (prepend (Text.consumed (c :: r) rest))
    else (find? name r).map (prepend [c])
termination_by t => t.length
decreasing_by
  all_goals simp_wf
  · have := (suffix_of_afterOpening? _ho).length_le
    omega
  · have := (suffix_of_afterOpening? _ho).length_le
    have := (OpenTag.suffix_of_parse? _ht).length_le
    omega

theorem consumed_append {t rest : Text} (h : rest <:+ t) : Text.consumed t rest ++ rest = t := by
  obtain ⟨s, rfl⟩ := h
  simp [Text.consumed]

theorem eq_consumed_append {t rest rest' : Text} (h : rest <:+ t) (hr : rest = rest') :
    t = Text.consumed t rest ++ rest' := by
  rw [← hr, consumed_append h]

theorem length_consumed {t rest : Text} (h : rest <:+ t) :
    (Text.consumed t rest).length = t.length - rest.length := by
  obtain ⟨s, rfl⟩ := h
  simp [Text.consumed]

/-- What is before the closing tag, the tag and what is behind it are the text that was searched. -/
theorem eq_append_of_closing? {name t body tag rest : Text} {depth : Nat}
    (h : closing? name depth t = some (body, tag, rest)) : t = body ++ tag ++ rest := by
  fun_induction closing? name depth t generalizing body with
  | case1 => simp at h
  | case2 r rest' hc =>
    simp at h
    obtain ⟨rfl, rfl, rfl⟩ := h
    exact eq_consumed_append ((suffix_of_afterClosing? hc).trans (List.suffix_cons _ r)) rfl
  | case3 _ r rest' hc _ ih =>
    obtain ⟨b, hb, rfl⟩ := of_map_prepend h
    simpa using eq_consumed_append
      ((suffix_of_afterClosing? hc).trans (List.suffix_cons '<' r)) (ih hb)
  | case4 _ r _ tail ho tag' rest' ht ih =>
    obtain ⟨b, hb, rfl⟩ := of_map_prepend h
    simpa using eq_consumed_append ((OpenTag.suffix_of_parse? ht).trans
      ((suffix_of_afterOpening? ho).trans (List.suffix_cons '<' r))) (ih hb)
  | case5 _ r _ tail ho _ ih =>
    obtain ⟨b, hb, rfl⟩ := of_map_prepend h
    simpa using eq_consumed_append
      ((suffix_of_afterOpening? ho).trans (List.suffix_cons '<' r)) (ih hb)
  | case6 _ r _ _ ih =>
    obtain ⟨b, hb, rfl⟩ := of_map_prepend h
    simp [ih hb]
  | case7 _ c r _ ih =>
    obtain ⟨b, hb, rfl⟩ := of_map_prepend h
    simp [ih hb]

/-- The text before an element, the element and the text behind it are the document. -/
theorem eq_append_of_find? {name t before rest : Text} {e : Element}
    (h : find? name t = some (before, e, rest)) : t = before ++ e.text ++ rest := by
  fun_induction find? name t generalizing before with
  | case1 => simp at h
  | case2 r _ ih =>
    obtain ⟨b, hb, rfl⟩ := of_map_prepend h
    simp [ih hb]
  | case3 r tail ho _ ih =>
    obtain ⟨b, hb, rfl⟩ := of_map_prepend h
    simpa using eq_consumed_append
      ((suffix_of_afterOpening? ho).trans (List.suffix_cons '<' r)) (ih hb)
  | case4 r tail ho tag rest' ht =>
    simp at h
    obtain ⟨rfl, rfl, rfl⟩ := h
    exact eq_consumed_append ((OpenTag.suffix_of_parse? ht).trans
      ((suffix_of_afterOpening? ho).trans (List.suffix_cons '<' r))) rfl
  | case5 r tail ho tag rest' ht _ body closing rest'' hc =>
    simp at h
    obtain ⟨rfl, rfl, rfl⟩ := h
    simpa [text] using eq_consumed_append ((OpenTag.suffix_of_parse? ht).trans
      ((suffix_of_afterOpening? ho).trans (List.suffix_cons '<' r))) (eq_append_of_closing? hc)
  | case6 r tail ho tag rest' ht _ _ ih =>
    obtain ⟨b, hb, rfl⟩ := of_map_prepend h
    simpa using eq_consumed_append ((OpenTag.suffix_of_parse? ht).trans
      ((suffix_of_afterOpening? ho).trans (List.suffix_cons '<' r))) (ih hb)
  | case7 c r _ ih =>
    obtain ⟨b, hb, rfl⟩ := of_map_prepend h
    simp [ih hb]

theorem consumed_ne_nil {c : Char} {r rest : Text} (h : rest <:+ r) :
    Text.consumed (c :: r) rest ≠ [] := by
  intro hn
  have h1 := length_consumed (h.trans (List.suffix_cons c r))
  have h2 := h.length_le
  rw [hn] at h1
  simp at h1
  omega

theorem opening_ne_nil_of_find? {name t before rest : Text} {e : Element}
    (h : find? name t = some (before, e, rest)) : e.opening ≠ [] := by
  fun_induction find? name t generalizing before with
  | case1 => simp at h
  | case4 r tail ho tag rest' ht =>
    simp at h
    obtain ⟨rfl, rfl, rfl⟩ := h
    exact consumed_ne_nil ((OpenTag.suffix_of_parse? ht).trans (suffix_of_afterOpening? ho))
  | case5 r tail ho tag rest' ht =>
    simp at h
    obtain ⟨rfl, rfl, rfl⟩ := h
    exact consumed_ne_nil ((OpenTag.suffix_of_parse? ht).trans (suffix_of_afterOpening? ho))
  | case2 _ _ ih | case3 _ _ _ _ ih | case6 _ _ _ _ _ _ _ _ ih | case7 _ _ _ ih =>
    obtain ⟨b, hb, _⟩ := of_map_prepend h
    exact ih hb

theorem text_ne_nil_of_find? {name t before rest : Text} {e : Element}
    (h : find? name t = some (before, e, rest)) : 0 < e.text.length := by
  have h1 := List.length_pos_iff.2 (opening_ne_nil_of_find? h)
  unfold text
  split <;> simp <;> omega

theorem length_body_lt_of_find? {name t before rest : Text} {e : Element}
    (h : find? name t = some (before, e, rest)) : e.body.length < t.length := by
  have h1 := List.length_pos_iff.2 (opening_ne_nil_of_find? h)
  have h2 := congrArg List.length (eq_append_of_find? h)
  obtain ⟨opening, attributes, content⟩ := e
  cases content with
  | none => simp [text] at h2 h1; simp [body, body?]; omega
  | some p => simp [text] at h2 h1; simp [body, body?]; omega

theorem length_rest_lt_of_find? {name t before rest : Text} {e : Element}
    (h : find? name t = some (before, e, rest)) : rest.length < t.length := by
  have h1 := text_ne_nil_of_find? h
  have h2 := congrArg List.length (eq_append_of_find? h)
  simp at h2
  omega

/-- The first element that has a body. -/
def findBlock? (name t : Text) : Option (Text × Element × Text) :=
  match _h : find? name t with
  | none => none
  | some (before, e, rest) =>
    if e.content.isSome then some (before, e, rest)
    else (findBlock? name rest).map (prepend (before ++ e.text))
termination_by t.length
decreasing_by exact length_rest_lt_of_find? _h

end Element

/-! ## Cutting a document into pieces -/

/-- A part of a document: an element of the name looked for, or text. -/
inductive Piece
  | text (t : Text)
  | element (e : Element)
deriving DecidableEq, Inhabited

namespace Piece

/-- A part as it is written. -/
def source : Piece → Text
  | text t => t
  | element e => e.text

end Piece

/-- The elements of a name in a document, and the texts around them. -/
def pieces (name t : Text) : List Piece :=
  match _h : Element.find? name t with
  | none => [.text t]
  | some (before, e, rest) => .text before :: .element e :: pieces name rest
termination_by t.length
decreasing_by exact Element.length_rest_lt_of_find? _h

/-- The pieces of a document, written one after the other, are the document. -/
theorem flatMap_source_pieces (name t : Text) : (pieces name t).flatMap Piece.source = t := by
  fun_induction pieces name t with
  | case1 => simp [Piece.source]
  | case2 t before e rest h ih =>
    rw [List.flatMap_cons, List.flatMap_cons, ih, Element.eq_append_of_find? h]
    simp [Piece.source]

theorem length_body_lt_of_mem_pieces {name t : Text} {e : Element}
    (h : .element e ∈ pieces name t) : e.body.length < t.length := by
  fun_induction pieces name t with
  | case1 => simp at h
  | case2 t before e' rest hf ih =>
    simp at h
    rcases h with rfl | h
    · exact Element.length_body_lt_of_find? hf
    · exact Nat.lt_trans (ih h) (Element.length_rest_lt_of_find? hf)

/-- Replaces the elements of a name one after the other, where finding a replacement is work that can
fail. An element for which there is none stays as it is; replacements are not searched again. -/
def replaceElementsM {m : Type → Type} [Monad m] (name : Text)
    (replacement : Element → m (Option Text)) (t : Text) : m Text := do
  let parts ← (pieces name t).mapM fun
    | .text t => pure t
    | .element e => return (← replacement e).getD e.text
  return parts.flatten

/-- Replaces the elements of a name; an element for which there is no replacement stays as it is, and
replacements are not searched again. -/
def replaceElements (name : Text) (replacement : Element → Option Text) (t : Text) : Text :=
  (pieces name t).flatMap fun
    | .text t => t
    | .element e => (replacement e).getD e.text

end Pagewright
