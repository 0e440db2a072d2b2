import Pagewright.Proofs.Template.Balance

/-!
# Tags as they are written

A tag can be written in many ways that mean the same: the letters of its name in either case, its values in quotes
of one kind or the other, without quotes or left out, and white space of any kind between its parts. Two things
live here:

* a tag with everything in it that can be chosen (`WrittenTag`, `WrittenEnd` for a closing tag), and what of it
  is read (`WrittenTag.read`);
* the scanner on such tags: an opening tag opens (`WrittenTag.opens`), one that closes itself is read as such
  (`WrittenTag.parse?_selfClosing`), and a closing tag closes (`WrittenEnd.closes`).
-/

namespace Pagewright

/-! ## Attributes -/

/-- White space and nothing else. -/
def IsGap (t : Text) : Prop := ∀ c ∈ t, Text.isBlank c

instance (t : Text) : Decidable (IsGap t) := inferInstanceAs (Decidable (∀ c ∈ t, _))

/-- How the value of an attribute is written: not at all, or behind a `=` with white space around it, as it is or in
quotes. -/
inductive ValueStyle
  | bare
  | unquoted (before behind : Text)
  | quoted (before behind : Text) (quote : Char)

namespace ValueStyle

/-- What stands behind the name of an attribute. -/
def write (value : Text) : ValueStyle → Text
  | bare => []
  | unquoted before behind => before ++ '=' :: (behind ++ value)
  | quoted before behind quote => before ++ '=' :: (behind ++ quote :: (value ++ [quote]))

/-- The values that a style can express. -/
def Expresses (value : Text) : ValueStyle → Prop
  | bare => value = []
  | unquoted before behind => IsGap before ∧ IsGap behind ∧ value ≠ [] ∧ (∀ c ∈ value, OpenTag.isBareChar c) ∧
    (∀ c ∈ value.head?, c ≠ '"' ∧ c ≠ '\'') ∧ value.getLast? ≠ some '/'
  | quoted before behind quote => IsGap before ∧ IsGap behind ∧ (quote = '"' ∨ quote = '\'') ∧ quote ∉ value

instance (value : Text) : (style : ValueStyle) → Decidable (style.Expresses value)
  | bare => inferInstanceAs (Decidable (value = []))
  | unquoted _ _ => inferInstanceAs (Decidable (_ ∧ _ ∧ _ ∧ _ ∧ _ ∧ _))
  | quoted _ _ _ => inferInstanceAs (Decidable (_ ∧ _ ∧ _ ∧ _))

end ValueStyle

/-- An attribute as it is written, with the white space in front of it. -/
structure WrittenAttribute where
  gap : Text
  name : Text
  value : Text
  style : ValueStyle

namespace WrittenAttribute

def text (a : WrittenAttribute) : Text := a.gap ++ (a.name ++ a.style.write a.value)

/-- An attribute that is read back: white space in front of it, a name of name characters, and a style that suits
its value. -/
def Proper (a : WrittenAttribute) : Prop :=
  (a.gap ≠ [] ∧ IsGap a.gap) ∧ (a.name ≠ [] ∧ ∀ c ∈ a.name, OpenTag.isNameChar c) ∧ a.style.Expresses a.value

instance (a : WrittenAttribute) : Decidable a.Proper := inferInstanceAs (Decidable ((_ ∧ _) ∧ (_ ∧ _) ∧ _))

end WrittenAttribute

/-- The attributes that are read: a name that is written again keeps its place and gets the later value. -/
def readAttributes (read : Attributes) (as : List WrittenAttribute) : Attributes :=
  as.foldl (fun read a => read.put a.name a.value) read

/-! ## Reading attributes -/

namespace OpenTag

variable {read : Attributes} {name value gap t r : Text} {c d : Char}

theorem isName_of_isNameChar (hne : name ≠ []) (h : ∀ c ∈ name, isNameChar c) : IsName name where
  chars := h
  head := by
    obtain ⟨c, s, rfl⟩ := List.exists_cons_of_ne_nil hne
    have hc : isNameChar c := h c List.mem_cons_self
    refine ⟨c, s, rfl, ?_, ?_, ?_⟩
    · by_contra hblank
      rw [isNameChar_of_isBlank (by simpa using hblank)] at hc
      cases hc
    · rintro rfl
      exact absurd hc (by decide +kernel)
    · rintro rfl
      exact absurd hc (by decide +kernel)

theorem parseFrom_gap (h : IsGap gap) : parseFrom read (gap ++ r) = parseFrom read r := by
  induction gap with
  | nil => rfl
  | cons c gap ih =>
    rw [List.cons_append, parseFrom_blank (h c List.mem_cons_self)]
    exact ih fun d hd => h d (List.mem_cons_of_mem c hd)

theorem trimStart_gap (h : IsGap gap) : Text.trimStart (gap ++ r) = Text.trimStart r :=
  List.dropWhile_append_of_pos h

theorem trimStart_cons_of_not_isBlank (h : Text.isBlank c = false) : Text.trimStart (c :: r) = c :: r :=
  List.dropWhile_cons_of_neg (by simp [h])

theorem parseFrom_trimStart (read : Attributes) (t : Text) : parseFrom read (Text.trimStart t) = parseFrom read t := by
  have hgap : IsGap (t.takeWhile Text.isBlank) := fun c hc => List.mem_takeWhile_imp hc
  rw [← parseFrom_gap hgap]
  exact congrArg (parseFrom read) List.takeWhile_append_dropWhile

/-- What can stand behind an attribute: white space or the end of the tag, and no `=`. -/
structure EndsAttribute (r : Text) : Prop where
  head : ∃ c s, r = c :: s ∧ (Text.isBlank c ∨ c = '>' ∨ (c = '/' ∧ s.head? = some '>'))
  behind : ∃ d s, Text.trimStart r = d :: s ∧ d ≠ '='

theorem EndsAttribute.not_isNameChar (h : EndsAttribute r) : ∀ d ∈ r.head?, isNameChar d = false := by
  obtain ⟨c, s, rfl, hc⟩ := h.head
  intro d hd
  obtain rfl : c = d := by simpa using hd
  rcases hc with hblank | rfl | ⟨rfl, -⟩
  · exact isNameChar_of_isBlank hblank
  · decide +kernel
  · decide +kernel

/-- A value without quotes ends where it should, also in front of the slash of a tag that closes itself. -/
theorem bareValue_append_of_endsAttribute (hvalue : ∀ c ∈ value, isBareChar c) (hlast : value.getLast? ≠ some '/')
    (hr : EndsAttribute r) : bareValue (value ++ r) = (value, r) := by
  obtain ⟨c, s, rfl, hc⟩ := hr.head
  have hplain : ∀ {d u}, isBareChar d = false → bareValue (value ++ d :: u) = (value, d :: u) := by
    intro d u hd
    unfold bareValue
    rw [Text.takeWhile_append_cons hvalue hd, Text.dropWhile_append_cons hvalue hd]
    dsimp only
    split
    · next h _ => exact absurd h hlast
    · rfl
  rcases hc with hblank | rfl | ⟨rfl, hs⟩
  · exact hplain (by simp [isBareChar, hblank])
  · exact hplain (by decide)
  · -- the slash is read as part of the value first, and then left to the end of the tag
    obtain ⟨u, rfl⟩ := List.head?_eq_some_iff.1 hs
    have hslash : isBareChar '/' := by decide
    have hbare : ∀ d ∈ value ++ ['/'], isBareChar d := by
      intro d hd
      rcases List.mem_append.1 hd with hd | hd
      · exact hvalue d hd
      · exact List.mem_singleton.1 hd ▸ hslash
    have htext : value ++ '/' :: '>' :: u = value ++ ['/'] ++ '>' :: u := by simp
    unfold bareValue
    rw [htext, Text.takeWhile_append_cons hbare (by decide), Text.dropWhile_append_cons hbare (by decide)]
    simp

/-- An attribute is read back in every style. -/
theorem parseFrom_written {a : WrittenAttribute} (h : a.Proper) (hr : EndsAttribute r) :
    parseFrom read (a.text ++ r) = parseFrom (read.put a.name a.value) r := by
  obtain ⟨gap, name, value, style⟩ := a
  obtain ⟨⟨-, hgap⟩, ⟨hne, hchars⟩, hstyle⟩ := h
  have hname : IsName name := isName_of_isNameChar hne hchars
  rw [WrittenAttribute.text, List.append_assoc, parseFrom_gap hgap, List.append_assoc]
  dsimp only
  cases style with
  | bare =>
    obtain rfl : value = [] := hstyle
    obtain ⟨d, s, htrim, hd⟩ := hr.behind
    rw [ValueStyle.write, List.nil_append, parseFrom_bare hname hr.not_isNameChar htrim hd, parseFrom_trimStart]
  | unquoted before behind =>
    obtain ⟨hbefore, hbehind, hvalue, hbare, hhead, hlast⟩ := hstyle
    obtain ⟨c, s, rfl⟩ := List.exists_cons_of_ne_nil hvalue
    have hc : Text.isBlank c = false := by
      have hbare := hbare c List.mem_cons_self
      simp only [isBareChar, Bool.and_eq_true, Bool.not_eq_true'] at hbare
      exact hbare.1
    have hquote : ¬ (c = '"' ∨ c = '\'') := by
      rw [not_or]
      exact hhead c rfl
    have htrim : Text.trimStart (ValueStyle.write (c :: s) (.unquoted before behind) ++ r) =
        '=' :: (behind ++ (c :: s ++ r)) := by
      rw [ValueStyle.write, List.append_assoc, trimStart_gap hbefore, List.cons_append, List.append_assoc,
        trimStart_cons_of_not_isBlank (by decide)]
    apply parseFrom_valued hname htrim
    rw [trimStart_gap hbehind, List.cons_append, trimStart_cons_of_not_isBlank hc, attributeValue?,
      if_neg (by simpa using hquote), ← List.cons_append, bareValue_append_of_endsAttribute hbare hlast hr]
  | quoted before behind quote =>
    obtain ⟨hbefore, hbehind, hquote, hvalue⟩ := hstyle
    have hblank : Text.isBlank quote = false := by rcases hquote with rfl | rfl <;> decide
    have htrim : Text.trimStart (ValueStyle.write value (.quoted before behind quote) ++ r) =
        '=' :: (behind ++ quote :: (value ++ quote :: r)) := by
      rw [ValueStyle.write, List.append_assoc, trimStart_gap hbefore, List.cons_append, List.append_assoc,
        List.cons_append, List.append_assoc, trimStart_cons_of_not_isBlank (by decide)]
      rfl
    apply parseFrom_valued hname htrim
    rw [trimStart_gap hbehind, trimStart_cons_of_not_isBlank hblank, attributeValue?, if_pos (by simpa using hquote),
      Text.splitOnce?_append hvalue]

theorem endsAttribute_gap (hgap : IsGap gap) (hr : EndsAttribute r) : EndsAttribute (gap ++ r) where
  head := by
    cases gap with
    | nil => exact hr.head
    | cons c gap => exact ⟨c, gap ++ r, rfl, Or.inl (hgap c List.mem_cons_self)⟩
  behind := by
    rw [trimStart_gap hgap]
    exact hr.behind

/-- An attribute can end in front of the next one. -/
theorem endsAttribute_text {a : WrittenAttribute} (h : a.Proper) (r : Text) : EndsAttribute (a.text ++ r) := by
  obtain ⟨gap, name, value, style⟩ := a
  obtain ⟨⟨hgap, hblank⟩, ⟨hne, hchars⟩, -⟩ := h
  obtain ⟨c, gap, rfl⟩ := List.exists_cons_of_ne_nil hgap
  refine ⟨⟨c, _, rfl, Or.inl (hblank c List.mem_cons_self)⟩, ?_⟩
  obtain ⟨d, s, rfl⟩ := List.exists_cons_of_ne_nil hne
  have hd : isNameChar d := hchars d List.mem_cons_self
  have hnot : Text.isBlank d = false := by
    by_contra hb
    rw [isNameChar_of_isBlank (by simpa using hb)] at hd
    cases hd
  refine ⟨d, s ++ style.write value ++ r, ?_, ?_⟩
  · rw [WrittenAttribute.text, List.append_assoc, trimStart_gap hblank]
    exact trimStart_cons_of_not_isBlank hnot
  · rintro rfl
    exact absurd hd (by decide +kernel)

theorem endsAttribute_flatMap_text {as : List WrittenAttribute} (h : ∀ a ∈ as, a.Proper) (hr : EndsAttribute r) :
    EndsAttribute (as.flatMap WrittenAttribute.text ++ r) := by
  cases as with
  | nil => exact hr
  | cons a as =>
    rw [List.flatMap_cons, List.append_assoc]
    exact endsAttribute_text (h a List.mem_cons_self) _

/-- Several attributes are read one after the other. -/
theorem parseFrom_flatMap_text {as : List WrittenAttribute} (h : ∀ a ∈ as, a.Proper) (hr : EndsAttribute r) :
    parseFrom read (as.flatMap WrittenAttribute.text ++ r) = parseFrom (readAttributes read as) r := by
  induction as generalizing read with
  | nil => rfl
  | cons a as ih =>
    have has : ∀ a ∈ as, a.Proper := fun b hb => h b (List.mem_cons_of_mem a hb)
    rw [List.flatMap_cons, List.append_assoc,
      parseFrom_written (h a List.mem_cons_self) (endsAttribute_flatMap_text has hr), ih has]
    rfl

theorem endsAttribute_end (s : Text) : EndsAttribute ('>' :: s) where
  head := ⟨'>', s, rfl, Or.inr (Or.inl rfl)⟩
  behind := ⟨'>', s, trimStart_cons_of_not_isBlank (by decide), by decide⟩

theorem endsAttribute_selfClosing (s : Text) : EndsAttribute ('/' :: '>' :: s) where
  head := ⟨'/', '>' :: s, rfl, Or.inr (Or.inr ⟨rfl, rfl⟩)⟩
  behind := ⟨'/', '>' :: s, trimStart_cons_of_not_isBlank (by decide), by decide⟩

end OpenTag

/-! ## Names -/

namespace Element

variable {name written r : Text} {c : Char}

/-- The names of elements are made of letters. -/
def IsName (name : Text) : Prop := name ≠ [] ∧ ∀ c ∈ name, c.isAlpha

instance (name : Text) : Decidable (IsName name) := inferInstanceAs (Decidable (_ ∧ ∀ c ∈ name, _))

theorem IsName.notMem {d : Char} (h : IsName name) (hd : d.toNat < 65) : d ∉ name.map Text.asciiLower := by
  intro hmem
  obtain ⟨c, hc, hlower⟩ := List.mem_map.1 hmem
  exact Text.asciiLower_ne_of_isAlpha (h.2 c hc) hd hlower

theorem afterName?_of_same (h : Text.sameIgnoringAsciiCase written name) (r : Text) :
    afterName? name (written ++ r) = some r := by
  have hlower := Text.sameIgnoringAsciiCase_iff.1 h
  induction name generalizing written with
  | nil =>
    obtain rfl : written = [] := by simpa using hlower
    rfl
  | cons d name ih =>
    cases written with
    | nil => simp at hlower
    | cons c written =>
      rw [List.map_cons, List.map_cons, List.cons.injEq] at hlower
      rw [List.cons_append, afterName?, if_pos hlower.1.symm]
      exact ih (Text.sameIgnoringAsciiCase_iff.2 hlower.2) hlower.2

end Element

/-! ## Tags -/

/-- An opening tag without its `<` and its end: its name, its attributes and the white space behind them. -/
structure WrittenTag where
  name : Text
  attributes : List WrittenAttribute
  gap : Text

namespace WrittenTag

variable {tag : WrittenTag} {name : Text}

/-- The tag with its end, behind the `<`. -/
def text (tag : WrittenTag) (ending : Text) : Text :=
  tag.name ++ (tag.attributes.flatMap WrittenAttribute.text ++ (tag.gap ++ ending))

/-- The text of an opening tag behind the `<`. -/
def opening (tag : WrittenTag) : Text := tag.text ['>']

/-- The text behind the `<` of a tag that closes itself. -/
def selfClosing (tag : WrittenTag) : Text := tag.text ['/', '>']

/-- The attributes that are read from the tag. -/
def read (tag : WrittenTag) : Attributes := readAttributes [] tag.attributes

/-- A tag of a name, in any case of its letters. -/
def Proper (name : Text) (tag : WrittenTag) : Prop :=
  Text.sameIgnoringAsciiCase tag.name name ∧ (∀ a ∈ tag.attributes, a.Proper) ∧ IsGap tag.gap

instance (name : Text) (tag : WrittenTag) : Decidable (tag.Proper name) :=
  inferInstanceAs (Decidable (_ ∧ (∀ a ∈ tag.attributes, _) ∧ _))

open OpenTag

variable {ending r : Text}

/-- The name is read off the tag, and the attributes are behind it. -/
private theorem afterOpening?_text (h : tag.Proper name) (hend : EndsAttribute (ending ++ r)) :
    Element.afterOpening? name (tag.text ending ++ r) =
      some (tag.attributes.flatMap WrittenAttribute.text ++ (tag.gap ++ (ending ++ r))) := by
  obtain ⟨hname, hattributes, hgap⟩ := h
  have hhead : ∃ c s, tag.attributes.flatMap WrittenAttribute.text ++ (tag.gap ++ (ending ++ r)) = c :: s ∧
      (Text.isBlank c ∨ c = '>' ∨ c = '/') := by
    have hends : EndsAttribute (tag.attributes.flatMap WrittenAttribute.text ++ (tag.gap ++ (ending ++ r))) := by
      exact endsAttribute_flatMap_text hattributes (endsAttribute_gap hgap hend)
    obtain ⟨c, s, htext, hc⟩ := hends.head
    exact ⟨c, s, htext, hc.imp_right (Or.imp_right And.left)⟩
  obtain ⟨c, s, htext, hc⟩ := hhead
  have hsplit : tag.text ending ++ r =
      tag.name ++ (tag.attributes.flatMap WrittenAttribute.text ++ (tag.gap ++ (ending ++ r))) := by
    simp [text]
  rw [hsplit, Element.afterOpening?, Element.afterName?_of_same hname, htext]
  exact if_pos (by rcases hc with hc | rfl | rfl <;> simp [*])

private theorem parse?_text (h : tag.Proper name) (hend : EndsAttribute (ending ++ r)) :
    parse? (tag.attributes.flatMap WrittenAttribute.text ++ (tag.gap ++ (ending ++ r))) =
      parseFrom tag.read (ending ++ r) := by
  obtain ⟨-, hattributes, hgap⟩ := h
  rw [parse?, parseFrom_flatMap_text hattributes (endsAttribute_gap hgap hend), parseFrom_gap hgap]
  rfl

/-- A tag is no closing tag: its name does not begin with a slash. -/
private theorem afterClosing?_text (hname : Element.IsName name) (h : tag.Proper name) (ending r : Text) :
    Element.afterClosing? name (tag.text ending ++ r) = none := by
  have hlower := Text.sameIgnoringAsciiCase_iff.1 h.1
  have hne : tag.name ≠ [] := by
    intro hnil
    rw [hnil, List.map_nil] at hlower
    exact hname.1 (List.map_eq_nil_iff.1 hlower.symm)
  obtain ⟨c, s, hcs⟩ := List.exists_cons_of_ne_nil hne
  have hslash : c ≠ '/' := by
    rintro rfl
    have hmem : Text.asciiLower '/' ∈ name.map Text.asciiLower := by
      rw [← hlower, hcs]
      exact List.mem_cons_self
    exact hname.notMem (by decide) hmem
  unfold text
  rw [hcs, List.cons_append, List.cons_append, Element.afterClosing?]
  intro t ht
  exact hslash (List.cons.inj ht).1

theorem opens (hname : Element.IsName name) (h : tag.Proper name) : Element.Opens name tag.opening tag.read := by
  intro r
  have hend : EndsAttribute (['>'] ++ r) := endsAttribute_end r
  refine ⟨afterClosing?_text hname h _ r, _, afterOpening?_text h hend, ?_⟩
  rw [parse?_text h hend]
  exact parseFrom_end

/-- A tag that closes itself is read as such. -/
theorem parse?_selfClosing (hname : Element.IsName name) (h : tag.Proper name) (r : Text) :
    Element.afterClosing? name (tag.selfClosing ++ r) = none ∧
      ∃ tail, Element.afterOpening? name (tag.selfClosing ++ r) = some tail ∧
        OpenTag.parse? tail = some (⟨tag.read, true⟩, r) := by
  have hend : EndsAttribute (['/', '>'] ++ r) := endsAttribute_selfClosing r
  refine ⟨afterClosing?_text hname h _ r, _, afterOpening?_text h hend, ?_⟩
  rw [parse?_text h hend]
  exact parseFrom_selfClosing

end WrittenTag

/-- A closing tag without its `<`: its name and the white space behind it. -/
structure WrittenEnd where
  name : Text
  gap : Text

namespace WrittenEnd

variable {tag : WrittenEnd} {name : Text}

def text (tag : WrittenEnd) : Text := '/' :: (tag.name ++ (tag.gap ++ ['>']))

def Proper (name : Text) (tag : WrittenEnd) : Prop := Text.sameIgnoringAsciiCase tag.name name ∧ IsGap tag.gap

instance (name : Text) (tag : WrittenEnd) : Decidable (tag.Proper name) := inferInstanceAs (Decidable (_ ∧ _))

theorem closes (h : tag.Proper name) : Element.Closes name tag.text := by
  intro r
  have htext : tag.text ++ r = '/' :: (tag.name ++ (tag.gap ++ '>' :: r)) := by simp [text]
  rw [htext, Element.afterClosing?, Element.afterName?_of_same h.1]
  dsimp only
  rw [OpenTag.trimStart_gap h.2, OpenTag.trimStart_cons_of_not_isBlank (by decide)]
  rfl

end WrittenEnd

end Pagewright
