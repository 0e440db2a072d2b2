import Pagewright.Proofs.Template.AttributeList
import Pagewright.Proofs.Template.Replacement
import Pagewright.Proofs.Template.TagText

/-!
# Elements at offsets

An element is found from an offset into a text on, and its parts are texts between offsets. Three things live here:

* the text between two offsets (`Text.slice?`), with what it is a part of (`Text.slice?_eq_some_iff`);
* an element with the offset at which it begins (`Element.Located`) and the search from an offset on
  (`Element.locate?`), whose offsets are those of the parts of the element (`Element.sound_of_locate?`);
* the parts into which a document is cut when each element is looked for from the end of the one before
  (`Element.Cut`). There are finitely many, and together they are the document (`Element.exists_cut`).

Replacing elements puts what is there for an element in its place, and leaves the parts in their order.
-/

namespace Pagewright

/-! ## Texts between offsets -/

namespace Text

variable {t s a b m : Text} {pos i j : Nat}

theorem fromOffset?_eq_some_iff : fromOffset? t pos = some s ↔ ∃ a, t = a ++ s ∧ size a = pos := by
  constructor
  · intro h
    fun_induction fromOffset? t pos with
    | case1 t => exact ⟨[], Option.some.inj h, rfl⟩
    | case2 => cases h
    | case3 c r n hle ih =>
      obtain ⟨a, rfl, ha⟩ := ih h
      exact ⟨c :: a, rfl, by rw [size_cons, ha]; omega⟩
    | case4 => cases h
  · rintro ⟨a, rfl, rfl⟩
    exact fromOffset?_append a s

/-- The offset of a character or of the end. -/
def IsOffset (t : Text) (pos : Nat) : Prop := (fromOffset? t pos).isSome

theorem isOffset_append (a s : Text) (h : t = a ++ s) : IsOffset t (size a) := by
  rw [h, IsOffset, fromOffset?_append]
  rfl

/-- The text from one offset to another. -/
def slice? (t : Text) (i j : Nat) : Option Text :=
  if i ≤ j then (fromOffset? t i).bind fun s => (fromOffset? s (j - i)).map (consumed s) else none

theorem slice?_eq_some_iff : slice? t i j = some m ↔ ∃ a b, t = a ++ (m ++ b) ∧ size a = i ∧ size a + size m = j := by
  constructor
  · intro h
    unfold slice? at h
    split at h
    · next hle =>
      obtain ⟨s, hs, h⟩ := Option.bind_eq_some_iff.1 h
      obtain ⟨b, hb, rfl⟩ := Option.map_eq_some_iff.1 h
      obtain ⟨a, rfl, ha⟩ := fromOffset?_eq_some_iff.1 hs
      obtain ⟨m, rfl, hm⟩ := fromOffset?_eq_some_iff.1 hb
      exact ⟨a, b, by rw [consumed_append_right], ha, by rw [consumed_append_right, hm]; omega⟩
    · cases h
  · rintro ⟨a, b, rfl, rfl, rfl⟩
    have hbehind : fromOffset? (m ++ b) (size a + size m - size a) = some b := by
      rw [Nat.add_sub_cancel_left, fromOffset?_append]
    rw [slice?, if_pos (Nat.le_add_right _ _), fromOffset?_append, Option.bind_some, hbehind, Option.map_some,
      consumed_append_right]

theorem slice?_append (a m b : Text) : slice? (a ++ (m ++ b)) (size a) (size a + size m) = some m :=
  slice?_eq_some_iff.2 ⟨a, b, rfl, rfl, rfl⟩

theorem suffix_concat_iff {c d : Char} : [c, d] <:+ t ++ [d] ↔ t.getLast? = some c := by
  rw [List.getLast?_eq_some_iff]
  constructor
  · rintro ⟨s, hs⟩
    rw [List.append_cons, List.append_left_inj] at hs
    exact ⟨s, hs.symm⟩
  · rintro ⟨s, rfl⟩
    exact ⟨s, List.append_cons s c [d]⟩

end Text

namespace Element

variable {name t s gap before rest : Text} {pos : Nat} {e : Element}

/-! ## Elements with their offsets -/

/-- An element with the offset at which it begins. -/
structure Located where
  start : Nat
  element : Element
deriving DecidableEq

namespace Located

/-- The offset behind the opening tag. -/
def openEnd (el : Located) : Nat := el.start + Text.size el.element.opening

/-- The offset behind the element. -/
def stop (el : Located) : Nat := el.start + Text.size el.element.text

/-- The offsets of an element name its parts: they are in order, from the offset on from which it was looked for, and
none is inside of a character. A name begins behind the first, the opening tag ends at the second, and behind a body
there is a closing tag up to the third. -/
structure Sound (name t : Text) (pos : Nat) (el : Located) : Prop where
  order : pos ≤ el.start ∧ el.start < el.openEnd ∧ el.openEnd ≤ el.stop ∧ el.stop ≤ Text.size t
  isOffset : ∀ i ∈ [pos, el.start, el.openEnd, el.stop], Text.IsOffset t i
  begins : ∃ written behind, Text.fromOffset? t el.start = some ('<' :: (written ++ behind)) ∧
    Text.sameIgnoringAsciiCase written name
  opening : Text.slice? t el.start el.openEnd = some el.element.opening
  text : Text.slice? t el.start el.stop = some el.element.text
  body_eq_none_iff : el.element.body? = none ↔ ['/', '>'] <:+ el.element.opening
  stop_of_body_eq_none : el.element.body? = none → el.stop = el.openEnd
  body : ∀ body ∈ el.element.body?, ∃ closing : WrittenEnd, closing.Proper name ∧
    Text.slice? t el.openEnd el.stop = some (body ++ '<' :: closing.text)

end Located

/-- The first element of a name that begins at an offset or behind it. -/
def locate? (name t : Text) (pos : Nat) : Option Located :=
  (Text.fromOffset? t pos).bind fun s => (find? name s).map fun found => ⟨pos + Text.size found.1, found.2.1⟩

theorem exists_of_locate? {start : Nat} (h : locate? name t pos = some ⟨start, e⟩) :
    ∃ a before rest, t = a ++ before ++ (e.text ++ rest) ∧ Text.size a = pos ∧ start = Text.size (a ++ before) ∧
      find? name (before ++ (e.text ++ rest)) = some (before, e, rest) := by
  obtain ⟨s, hs, h⟩ := Option.bind_eq_some_iff.1 h
  obtain ⟨⟨before, e', rest⟩, hfind, hel⟩ := Option.map_eq_some_iff.1 h
  obtain ⟨a, rfl, ha⟩ := Text.fromOffset?_eq_some_iff.1 hs
  obtain ⟨hstart, rfl⟩ := Located.mk.inj hel
  have htext : s = before ++ (e'.text ++ rest) := by rw [eq_append_of_find? hfind, List.append_assoc]
  refine ⟨a, before, rest, by rw [htext, List.append_assoc], ha, ?_, htext ▸ hfind⟩
  rw [Text.size_append, ha, hstart]

theorem locate?_of_find? {a : Text} (h : find? name s = some (before, e, rest)) :
    locate? name (a ++ s) (Text.size a) = some ⟨Text.size a + Text.size before, e⟩ := by
  rw [locate?, Text.fromOffset?_append, Option.bind_some, h, Option.map_some]

theorem locate?_of_find?_eq_none {a : Text} (h : find? name s = none) : locate? name (a ++ s) (Text.size a) = none := by
  rw [locate?, Text.fromOffset?_append, Option.bind_some, h, Option.map_none]

/-- What an element is behind its opening tag: its body and its closing tag. -/
def behindOpening (e : Element) : Text := e.content.elim [] fun c => c.1 ++ c.2

theorem text_eq_append (e : Element) : e.text = e.opening ++ e.behindOpening := by
  obtain ⟨opening, attributes, content⟩ := e
  cases content with
  | none => exact (List.append_nil opening).symm
  | some c => exact List.append_assoc opening c.1 c.2

/-- The offsets of an element that is found are sound. -/
theorem sound_of_locate? {el : Located} (hname : ∀ c ∈ name, c.isAlpha) (h : locate? name t pos = some el) :
    el.Sound name t pos := by
  obtain ⟨start, e⟩ := el
  obtain ⟨a, before, rest, rfl, rfl, rfl, hfind⟩ := exists_of_locate? h
  obtain ⟨⟨o, hopening, hopen⟩, hclosing⟩ := isScanned_of_find? hfind
  have htext : a ++ before ++ (e.text ++ rest) = a ++ before ++ (e.opening ++ (e.behindOpening ++ rest)) := by
    rw [text_eq_append, List.append_assoc e.opening]
  refine ⟨?_, ?_, ?_, ?_, ?_, ?_, ?_, ?_⟩
  · have hsize : 0 < Text.size e.opening := by
      rw [hopening, Text.size_cons]
      exact Nat.add_pos_left ('<').utf8Size_pos _
    simp only [Located.openEnd, Located.stop, text_eq_append, Text.size_append]
    omega
  · intro i hi
    simp only [List.mem_cons, List.not_mem_nil, or_false, Located.openEnd, Located.stop] at hi
    rcases hi with rfl | rfl | rfl | rfl
    · exact Text.isOffset_append a _ (List.append_assoc _ _ _)
    · exact Text.isOffset_append (a ++ before) _ rfl
    · exact Text.size_append _ e.opening ▸ Text.isOffset_append _ _ (htext.trans (List.append_assoc _ _ _).symm)
    · exact Text.size_append _ e.text ▸ Text.isOffset_append _ rest (List.append_assoc _ _ _).symm
  · obtain ⟨written, behind, rfl, hsame⟩ := hopen.exists_name
    refine ⟨written, behind ++ (e.behindOpening ++ rest), ?_, hsame⟩
    rw [htext, Text.fromOffset?_append, hopening]
    simp
  · rw [htext]
    exact Text.slice?_append _ _ _
  · exact Text.slice?_append _ _ _
  · -- the slash of a tag that closes itself stands in front of its end
    obtain ⟨v, rfl, hslash⟩ := hopen.ends hname
    have hnone : e.body? = none ↔ e.openTag.selfClosing := by
      rw [body?, Option.map_eq_none_iff, openTag, Option.isNone_iff_eq_none]
    have hlast : ('<' :: v).getLast? = some '/' ↔ v.getLast? = some '/' := by
      cases v with
      | nil => decide
      | cons c v => rw [List.getLast?_cons_cons]
    rw [hnone, hslash, hopening, ← hlast, ← List.cons_append, Text.suffix_concat_iff]
  · intro hnone
    have hcontent : e.content = none := Option.map_eq_none_iff.1 hnone
    rw [Located.stop, Located.openEnd, text_eq_append, behindOpening, hcontent, Option.elim_none, List.append_nil]
  · intro body hbody
    obtain ⟨⟨body', closing⟩, hcontent, rfl⟩ := Option.map_eq_some_iff.1 hbody
    obtain ⟨written, hwritten, hend⟩ := hclosing _ hcontent
    have hbehind : e.behindOpening = body' ++ '<' :: written.text := by
      rw [behindOpening, hcontent, Option.elim_some, hend]
    refine ⟨written, hwritten, ?_⟩
    rw [← hbehind, htext, Located.openEnd, Located.stop, text_eq_append, Text.size_append e.opening,
      ← List.append_assoc (a ++ before), ← Nat.add_assoc, ← Text.size_append]
    exact Text.slice?_append _ _ _

/-! ## Cutting -/

/-- The elements of a text from an offset on, each with the text in front of it, and the text behind the last one: each
is looked for from the end of the one before. -/
inductive Cut (name t : Text) : Nat → List (Text × Located) → Text → Prop
  | last {pos : Nat} {rest : Text} (hnone : locate? name t pos = none) (hrest : Text.fromOffset? t pos = some rest) :
    Cut name t pos [] rest
  | next {pos : Nat} {el : Located} {gap rest : Text} {parts : List (Text × Located)}
    (hfind : locate? name t pos = some el) (hgap : Text.slice? t pos el.start = some gap)
    (h : Cut name t el.stop parts rest) : Cut name t pos ((gap, el) :: parts) rest

/-- What is found from an offset on is what is found in the text behind it. -/
theorem exists_find?_of_locate? {el : Located} (hs : Text.fromOffset? t pos = some s)
    (hfind : locate? name t pos = some el) (hgap : Text.slice? t pos el.start = some gap) :
    ∃ rest, find? name s = some (gap, el.element, rest) ∧ Text.fromOffset? t el.stop = some rest := by
  rw [locate?, hs, Option.bind_some] at hfind
  obtain ⟨⟨before, e, rest⟩, hfound, rfl⟩ := Option.map_eq_some_iff.1 hfind
  obtain ⟨a, rfl, rfl⟩ := Text.fromOffset?_eq_some_iff.1 hs
  have htext : s = before ++ (e.text ++ rest) := by rw [eq_append_of_find? hfound, List.append_assoc]
  subst htext
  obtain rfl : before = gap := Option.some.inj ((Text.slice?_append a before _).symm.trans hgap)
  refine ⟨rest, hfound, ?_⟩
  rw [Located.stop, ← Text.size_append, ← Text.size_append, ← List.append_assoc, ← List.append_assoc]
  exact Text.fromOffset?_append _ rest

/-- The search from the end of each element on comes to an end. -/
theorem exists_cut (name a s : Text) : ∃ parts rest, Cut name (a ++ s) (Text.size a) parts rest := by
  fun_induction pieces name s generalizing a with
  | case1 s hnone => exact ⟨[], s, .last (locate?_of_find?_eq_none hnone) (Text.fromOffset?_append a s)⟩
  | case2 s before e rest hfind ih =>
    obtain ⟨parts, behind, hcut⟩ := ih (a ++ before ++ e.text)
    have hs : a ++ s = a ++ (before ++ (e.text ++ rest)) := by rw [eq_append_of_find? hfind, List.append_assoc]
    refine ⟨(before, ⟨Text.size a + Text.size before, e⟩) :: parts, behind, .next (locate?_of_find? hfind) ?_ ?_⟩
    · rw [hs]
      exact Text.slice?_append a before _
    · rw [Located.stop, ← Text.size_append, ← Text.size_append, hs, ← List.append_assoc, ← List.append_assoc]
      exact hcut

namespace Cut

variable {parts : List (Text × Located)}

/-- The parts, one after the other, are the text from the offset on. -/
theorem eq_append (h : Cut name t pos parts rest) (hs : Text.fromOffset? t pos = some s) :
    s = parts.flatMap (fun p => p.1 ++ p.2.element.text) ++ rest := by
  induction h generalizing s with
  | last _ hrest => exact Option.some.inj (hs.symm.trans hrest)
  | next hfind hgap _ ih =>
    obtain ⟨behind, hfound, hbehind⟩ := exists_find?_of_locate? hs hfind hgap
    rw [eq_append_of_find? hfound, List.flatMap_cons, List.append_assoc, List.append_assoc, List.append_assoc, ← ih hbehind]

variable {m : Type → Type} [Monad m] [LawfulMonad m]

/-- Replacing the elements replaces each of them in its place. -/
theorem replaceElementsM_eq (h : Cut name t pos parts rest) (hs : Text.fromOffset? t pos = some s)
    (f : Element → m (Option Text)) :
    replaceElementsM name f s = do
      let outs ← parts.mapM fun p => return p.1 ++ (← f p.2.element).getD p.2.element.text
      return outs.flatten ++ rest := by
  induction h generalizing s with
  | last hnone hrest =>
    have hnone : find? name s = none := by
      rw [locate?, hs, Option.bind_some] at hnone
      exact Option.map_eq_none_iff.1 hnone
    obtain rfl := Option.some.inj (hs.symm.trans hrest)
    rw [replaceElementsM_of_find?_eq_none hnone, List.mapM_nil, pure_bind]
    rfl
  | next hfind hgap _ ih =>
    obtain ⟨behind, hfound, hbehind⟩ := exists_find?_of_locate? hs hfind hgap
    rw [replaceElementsM_of_find? hfound, ih hbehind, List.mapM_cons]
    simp

end Cut

/-- A document with the elements that are found in it has sound offsets, and replacing elements cuts it into parts that
stay in their order: what is between the elements stays, and each element makes room for its replacement. -/
theorem offsets_sound (hname : ∀ c ∈ name, c.isAlpha) (t : Text) :
    (∀ pos el, locate? name t pos = some el → el.Sound name t pos) ∧
    ∃ parts rest, Cut name t 0 parts rest ∧ t = parts.flatMap (fun p => p.1 ++ p.2.element.text) ++ rest ∧
      ∀ (m : Type → Type) [Monad m] [LawfulMonad m] (f : Element → m (Option Text)),
        (replaceElementsM name f t = do
          let outs ← parts.mapM fun p => return p.1 ++ (← f p.2.element).getD p.2.element.text
          return outs.flatten ++ rest) ∧
        ((∀ p ∈ parts, f p.2.element = pure none ∨ f p.2.element = pure (some p.2.element.text)) →
          replaceElementsM name f t = pure t) := by
  have hstart : Text.fromOffset? t 0 = some t := Text.fromOffset?_append [] t
  obtain ⟨parts, rest, hcut⟩ := exists_cut name [] t
  have ht := hcut.eq_append hstart
  refine ⟨fun pos el h => sound_of_locate? hname h, parts, rest, hcut, ht, fun m _ _ f => ?_⟩
  have hreplace := hcut.replaceElementsM_eq hstart f
  refine ⟨hreplace, fun hself => ?_⟩
  have hparts : parts.mapM (fun p => do return p.1 ++ (← f p.2.element).getD p.2.element.text) =
      pure (parts.map fun p => p.1 ++ p.2.element.text) := by
    refine mapM_eq_pure fun p hp => ?_
    rcases hself p hp with hf | hf
    · rw [hf, pure_bind, Option.getD_none]
    · rw [hf, pure_bind, Option.getD_some]
  rw [hreplace, hparts, pure_bind, ← List.flatMap_def, ← ht]

/-- Two elements between characters of two bytes, the first of which closes itself; the other one is found from its start
on, with an element in its body. -/
theorem offsets_sound_umlauts :
    let t := "é<IF a=ü/>ß<if b='/>'>y<If/></iF >z".toList
    let closed : Located := ⟨2, "<IF a=ü/>".toList, [("a".toList, "ü".toList)], none⟩
    let block : Located := ⟨14, "<if b='/>'>".toList, [("b".toList, "/>".toList)],
      some ("y<If/>".toList, "</iF >".toList)⟩
    (∀ c ∈ "If".toList, c.isAlpha) ∧
      (locate? "If".toList t 0 = some closed ∧ closed.Sound "If".toList t 0) ∧
      (locate? "If".toList t 14 = some block ∧ block.Sound "If".toList t 14) ∧
      replaceElementsM "If".toList (fun e => if e.content.isNone then some none else some (some e.text)) t = some t := by
  intro t closed block
  have hname : ∀ c ∈ "If".toList, c.isAlpha := by decide
  obtain ⟨hsound, parts, rest, -, -, hreplace⟩ := offsets_sound hname t
  have hclosed : locate? "If".toList t 0 = some closed := by decide +kernel
  have hblock : locate? "If".toList t 14 = some block := by decide +kernel
  refine ⟨hname, ⟨hclosed, hsound 0 closed hclosed⟩, ⟨hblock, hsound 14 block hblock⟩, ?_⟩
  refine (hreplace Option _).2 fun p _ => ?_
  split
  · exact Or.inl rfl
  · exact Or.inr rfl

end Element

end Pagewright
