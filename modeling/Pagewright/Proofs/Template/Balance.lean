import Pagewright.Proofs.Template.Element

/-!
# Texts that close what they open

Elements are looked for from left to right, so what a text contributes to the search can be said without what
follows it. Two kinds of texts are told apart here: those in which no tag of a name begins (`Element.Skips`),
which the search for an element passes over, and those in which every opening tag has its closing tag
(`Element.Balanced`), which the search for a closing tag passes over. An element with a balanced body is
balanced, and found as a whole whatever follows it (`Element.find?_element`).

A text that ends like a tag begins does not skip the name whatever follows it. It is enough that it does so before the
text that stands behind it (`Element.SkipsBefore`), as a chunk does before a tag (`Element.IsChunk.skipsBefore`).
-/

namespace Pagewright

namespace Element

variable {name u v r t o c body : Text} {attributes : Attributes} {d : Char}

/-! ## Texts without tags of a name -/

/-- No tag of the name begins in the text `u` when it is followed by `r`. -/
def SkipsBefore (name u r : Text) : Prop :=
  ∀ v, '<' :: v <:+ u → afterOpening? name (v ++ r) = none ∧ afterClosing? name (v ++ r) = none

theorem SkipsBefore.tail (h : SkipsBefore name (d :: u) r) : SkipsBefore name u r := fun v hv =>
  h v (hv.trans (List.suffix_cons d u))

/-- The search for an element passes over a text in which no tag of its name begins. -/
theorem SkipsBefore.find?_append (h : SkipsBefore name u r) :
    find? name (u ++ r) = (find? name r).map (prepend u) := by
  induction u with
  | nil => exact (map_prepend_nil _).symm
  | cons d u ih =>
    have hrest : find? name (d :: (u ++ r)) = (find? name (u ++ r)).map (prepend [d]) := by
      by_cases hd : d = '<'
      · subst hd
        exact find?_of_afterOpening?_eq_none (h u List.suffix_rfl).1
      · exact find?_cons_of_ne hd
    rw [List.cons_append, hrest, ih h.tail, Option.map_map]
    rfl

/-- So does the search for a closing tag. -/
theorem SkipsBefore.closing?_append (h : SkipsBefore name u r) (depth : Nat) :
    closing? name depth (u ++ r) = (closing? name depth r).map (prepend u) := by
  induction u with
  | nil => exact (map_prepend_nil _).symm
  | cons d u ih =>
    have hrest : closing? name depth (d :: (u ++ r)) = (closing? name depth (u ++ r)).map (prepend [d]) := by
      by_cases hd : d = '<'
      · subst hd
        obtain ⟨ho, hc⟩ := h u List.suffix_rfl
        exact closing?_of_afterOpening?_eq_none hc ho depth
      · exact closing?_cons_of_ne hd
    rw [List.cons_append, hrest, ih h.tail, Option.map_map]
    rfl

/-- No tag of the name begins in the text, whatever follows it. -/
def Skips (name u : Text) : Prop :=
  ∀ v, '<' :: v <:+ u → ∀ z, afterOpening? name (v ++ z) = none ∧ afterClosing? name (v ++ z) = none

theorem Skips.before (h : Skips name u) (r : Text) : SkipsBefore name u r := fun v hv => h v hv r

theorem skips_of_notMem (h : '<' ∉ u) : Skips name u := fun _ hv =>
  absurd (hv.subset List.mem_cons_self) h

theorem Skips.tail (h : Skips name (d :: u)) : Skips name u := fun v hv =>
  h v (hv.trans (List.suffix_cons d u))

theorem Skips.append (hu : Skips name u) (hv : Skips name v) : Skips name (u ++ v) := by
  induction u with
  | nil => exact hv
  | cons d u ih =>
    intro w hw z
    rcases List.suffix_cons_iff.1 hw with heq | hsuf
    · obtain ⟨rfl, rfl⟩ := List.cons.inj heq
      have h := hu u List.suffix_rfl (v ++ z)
      rwa [← List.append_assoc] at h
    · exact ih hu.tail w hsuf z

theorem Skips.find?_append (h : Skips name u) (r : Text) :
    find? name (u ++ r) = (find? name r).map (prepend u) := (h.before r).find?_append

/-! ## Chunks -/

/-- A text in which no `<` is followed by the name or by a slash and the name, in any case of the letters. -/
def IsChunk (name t : Text) : Prop :=
  ¬ '<' :: name.map Text.asciiLower <:+: t.map Text.asciiLower ∧
    ¬ '<' :: '/' :: name.map Text.asciiLower <:+: t.map Text.asciiLower

instance (name t : Text) : Decidable (IsChunk name t) := inferInstanceAs (Decidable (_ ∧ _))

/-- The end of a document, or the `<` of a tag. -/
def AtTag (r : Text) : Prop := ∀ d ∈ r.head?, d = '<'

theorem atTag_nil : AtTag [] := by
  intro d hd
  cases hd

theorem atTag_append (u r : Text) : AtTag ('<' :: u ++ r) := by
  intro d hd
  simpa using hd.symm

private theorem prefix_of_suffix (hv : '<' :: v <:+ t) :
    (name <+: v.map Text.asciiLower) → '<' :: name <:+: t.map Text.asciiLower := by
  intro hpre
  have hlt : Text.asciiLower '<' = '<' := by decide
  have hcons : '<' :: name <+: ('<' :: v).map Text.asciiLower := by
    rw [List.map_cons, hlt]
    exact List.cons_prefix_cons.2 ⟨rfl, hpre⟩
  exact hcons.isInfix.trans (hv.map Text.asciiLower).isInfix

/-- No tag begins in a chunk that stands in front of a tag: a name has no `<`, so it does not reach into it. -/
theorem IsChunk.skipsBefore (h : IsChunk name t) (hname : '<' ∉ name.map Text.asciiLower) (hr : AtTag r) :
    SkipsBefore name t r := by
  have hlt : Text.asciiLower '<' = '<' := by decide
  have hhead : ∀ d ∈ r.head?, Text.asciiLower d ∉ name.map Text.asciiLower := by
    intro d hd
    rw [hr d hd, hlt]
    exact hname
  intro v hv
  have hopening : ¬ name.map Text.asciiLower <+: v.map Text.asciiLower := fun hpre => h.1 (prefix_of_suffix hv hpre)
  refine ⟨by rw [afterOpening?, afterName?_append_eq_none hopening hhead], ?_⟩
  cases v with
  | nil =>
    cases r with
    | nil => rfl
    | cons d r =>
      obtain rfl : d = '<' := hr d rfl
      rfl
  | cons d v =>
    by_cases hd : d = '/'
    · subst hd
      have hclosing : ¬ name.map Text.asciiLower <+: v.map Text.asciiLower := by
        intro hpre
        have hslash : Text.asciiLower '/' = '/' := by decide
        apply h.2
        apply prefix_of_suffix hv
        rw [List.map_cons, hslash]
        exact List.cons_prefix_cons.2 ⟨rfl, hpre⟩
      rw [List.cons_append, afterClosing?, afterName?_append_eq_none hclosing hhead]
    · rw [List.cons_append, afterClosing?]
      intro rest hrest
      exact absurd (List.cons.inj hrest).1 hd

/-! ## Balanced texts -/

/-- The search for a closing tag passes over the text, at any depth. -/
def Balanced (name u : Text) : Prop :=
  ∀ depth r, closing? name depth (u ++ r) = (closing? name depth r).map (prepend u)

theorem Balanced.nil (name : Text) : Balanced name [] := by
  intro depth r
  exact (map_prepend_nil _).symm

theorem Balanced.append (hu : Balanced name u) (hv : Balanced name v) : Balanced name (u ++ v) := by
  intro depth r
  rw [List.append_assoc, hu, hv, Option.map_map, prepend_comp]

theorem Skips.balanced (h : Skips name u) : Balanced name u := fun depth r =>
  (h.before r).closing?_append depth

/-! ## Tags -/

/-- The text, behind its `<`, is an opening tag with the given attributes, whatever follows. -/
def Opens (name o : Text) (attributes : Attributes) : Prop :=
  ∀ r, afterClosing? name (o ++ r) = none ∧
    ∃ tail, afterOpening? name (o ++ r) = some tail ∧ OpenTag.parse? tail = some (⟨attributes, false⟩, r)

/-- The text, behind its `<`, is a closing tag, whatever follows. -/
def Closes (name c : Text) : Prop := ∀ r, afterClosing? name (c ++ r) = some r

/-- An element as it is written. -/
def written (o body c : Text) : Text := '<' :: o ++ (body ++ '<' :: c)

theorem Closes.closing?_zero (h : Closes name c) (r : Text) :
    closing? name 0 ('<' :: c ++ r) = some ([], '<' :: c, r) := by
  rw [List.cons_append, closing?_of_afterClosing? (h r), if_pos rfl, Text.consumed_cons_append]

theorem Closes.closing?_succ (h : Closes name c) (depth : Nat) (r : Text) :
    closing? name (depth + 1) ('<' :: c ++ r) = (closing? name depth r).map (prepend ('<' :: c)) := by
  rw [List.cons_append, closing?_of_afterClosing? (h r), if_neg (Nat.succ_ne_zero depth),
    Text.consumed_cons_append, Nat.add_sub_cancel]

theorem Opens.closing? (h : Opens name o attributes) (depth : Nat) (r : Text) :
    closing? name depth ('<' :: o ++ r) = (Element.closing? name (depth + 1) r).map (prepend ('<' :: o)) := by
  obtain ⟨hc, tail, ho, ht⟩ := h r
  rw [List.cons_append, closing?_of_parse? hc ho ht, Text.consumed_cons_append]
  rfl

/-- An element with a balanced body is balanced. -/
theorem Balanced.written (ho : Opens name o attributes) (hb : Balanced name body) (hc : Closes name c) :
    Balanced name (written o body c) := by
  intro depth r
  rw [Element.written, List.append_assoc, ho.closing?, List.append_assoc, hb, hc.closing?_succ,
    Option.map_map, Option.map_map, prepend_comp, prepend_comp, List.append_assoc]

/-- An element whose closing tag is found behind its opening tag. -/
theorem find?_of_opens {closing after : Text} (ho : Opens name o attributes)
    (hc : closing? name 0 r = some (body, closing, after)) :
    find? name ('<' :: o ++ r) = some ([], ⟨'<' :: o, attributes, some (body, closing)⟩, after) := by
  obtain ⟨-, tail, hopen, hparse⟩ := ho r
  rw [List.cons_append, find?_of_closing? hopen hparse rfl hc, Text.consumed_cons_append]

/-- An opening tag without a closing tag is passed over. -/
theorem find?_of_closing?_eq_none (ho : Opens name o attributes) (hc : closing? name 0 r = none) :
    find? name ('<' :: o ++ r) = (find? name r).map (prepend ('<' :: o)) := by
  obtain ⟨-, tail, hopen, hparse⟩ := ho r
  rw [List.cons_append, find?_of_parse? hopen hparse, hc, Text.consumed_cons_append]
  rfl

/-- The end of a balanced text is the closing tag behind it. -/
theorem Balanced.closing?_closes (hb : Balanced name body) (hc : Closes name c) (r : Text) :
    Element.closing? name 0 (body ++ ('<' :: c ++ r)) = some (body, '<' :: c, r) := by
  rw [hb, hc.closing?_zero]
  simp [prepend]

/-- An element with a balanced body is found as a whole. -/
theorem find?_element (ho : Opens name o attributes) (hb : Balanced name body) (hc : Closes name c) (r : Text) :
    find? name (written o body c ++ r) =
      some ([], ⟨'<' :: o, attributes, some (body, '<' :: c)⟩, r) := by
  have htext : Element.written o body c ++ r = '<' :: o ++ (body ++ ('<' :: c ++ r)) := by
    simp [Element.written]
  rw [htext, find?_of_opens ho (hb.closing?_closes hc r)]

/-- An element that closes itself: behind its `<`, the text is such a tag, whatever follows. -/
theorem find?_selfClosing
    (ho : ∃ tail, afterOpening? name (o ++ r) = some tail ∧ OpenTag.parse? tail = some (⟨attributes, true⟩, r)) :
    find? name ('<' :: o ++ r) = some ([], ⟨'<' :: o, attributes, none⟩, r) := by
  obtain ⟨tail, hopen, hparse⟩ := ho
  rw [List.cons_append, find?_of_parse? hopen hparse, if_pos rfl, Text.consumed_cons_append]

/-- A tag that closes itself opens nothing. -/
theorem closing?_selfClosing (ho : afterClosing? name (o ++ r) = none ∧
      ∃ tail, afterOpening? name (o ++ r) = some tail ∧ OpenTag.parse? tail = some (⟨attributes, true⟩, r)) (depth : Nat) :
    closing? name depth ('<' :: o ++ r) = (closing? name depth r).map (prepend ('<' :: o)) := by
  obtain ⟨hc, tail, hopen, hparse⟩ := ho
  rw [List.cons_append, closing?_of_parse? hc hopen hparse, Text.consumed_cons_append]
  rfl

end Element

/-! ## Pieces -/

section Pieces

open Element

variable {name u r o c body : Text} {attributes : Attributes}

/-- The pieces of a text begin with a text. A text without tags of the name in front of it makes that one
longer. -/
theorem pieces_append_of_skipsBefore (h : SkipsBefore name u r) :
    ∃ t ps, pieces name r = .text t :: ps ∧ pieces name (u ++ r) = .text (u ++ t) :: ps := by
  cases hr : find? name r with
  | none =>
    have hu : find? name (u ++ r) = none := by
      rw [h.find?_append, hr]
      rfl
    exact ⟨r, [], pieces_of_find?_eq_none hr, pieces_of_find?_eq_none hu⟩
  | some found =>
    obtain ⟨before, e, rest⟩ := found
    have hu : find? name (u ++ r) = some (u ++ before, e, rest) := by
      rw [h.find?_append, hr]
      rfl
    exact ⟨before, _, pieces_of_find? hr, pieces_of_find? hu⟩

theorem pieces_append_of_skips (h : Skips name u) (r : Text) :
    ∃ t ps, pieces name r = .text t :: ps ∧ pieces name (u ++ r) = .text (u ++ t) :: ps :=
  pieces_append_of_skipsBefore (h.before r)

theorem pieces_element (ho : Opens name o attributes) (hb : Balanced name body) (hc : Closes name c)
    (r : Text) :
    pieces name (Element.written o body c ++ r) =
      .text [] :: .element ⟨'<' :: o, attributes, some (body, '<' :: c)⟩ :: pieces name r :=
  pieces_of_find? (find?_element ho hb hc r)

theorem pieces_nil (name : Text) : pieces name [] = [.text []] :=
  pieces_of_find?_eq_none (find?_eq_none_of_notMem (by simp))

end Pieces

end Pagewright
