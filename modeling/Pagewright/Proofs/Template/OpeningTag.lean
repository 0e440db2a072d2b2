import Mathlib.Data.List.Nodup
import Pagewright.Proofs.Template.WrittenTag
import Pagewright.Proofs.Text.Substitution
import Pagewright.Template.Loop

/-!
# Opening tags, written again

An opening tag is read, and then a tag is written from the attributes that were read. Three things live here:

* what attributes are like that were read from a tag: their names are names, and each stands there once
  (`Attributes.Named`, `Element.named_of_find?`);
* the name of an element as it is written (`Element.exists_opening_of_find?`);
* a tag that is written from such attributes is read again (`Loop.opens_openingTag`), with the same values but for
  their double quotes, which are written as a reference and stay one (`Attributes.escaped_eq_iff`).
-/

namespace Pagewright

/-! ## Attributes that are read -/

namespace Attributes

variable {as : Attributes} {name value : Text}

/-- Attributes as they are read from a tag: each has a name, and no two have the same one. -/
structure Named (as : Attributes) : Prop where
  nodup : (as.map Prod.fst).Nodup
  names : ∀ a ∈ as, a.1 ≠ [] ∧ ∀ c ∈ a.1, OpenTag.isNameChar c

theorem named_nil : Named [] where
  nodup := List.nodup_nil
  names := fun _ ha => absurd ha List.not_mem_nil

theorem put_of_notMem (h : name ∉ as.map Prod.fst) (value : Text) : as.put name value = as ++ [(name, value)] := by
  induction as with
  | nil => rfl
  | cons a as ih =>
    obtain ⟨k, v⟩ := a
    rw [List.map_cons, List.mem_cons, not_or] at h
    rw [put, if_neg (Ne.symm h.1), ih h.2]
    rfl

theorem map_fst_put_of_mem (h : name ∈ as.map Prod.fst) (value : Text) :
    (as.put name value).map Prod.fst = as.map Prod.fst := by
  induction as with
  | nil => exact absurd h List.not_mem_nil
  | cons a as ih =>
    obtain ⟨k, v⟩ := a
    rw [put]
    split
    · rfl
    · next hk => rw [List.map_cons, List.map_cons, ih ((List.mem_cons.1 h).resolve_left (Ne.symm hk))]

theorem Named.append (h : Named as) (hname : name ∉ as.map Prod.fst)
    (hchars : name ≠ [] ∧ ∀ c ∈ name, OpenTag.isNameChar c) (value : Text) : Named (as ++ [(name, value)]) where
  nodup := by
    rw [List.map_append, List.nodup_append]
    refine ⟨h.nodup, List.nodup_singleton name, fun k hk k' hk' hkk' => hname ?_⟩
    obtain rfl : k' = name := List.mem_singleton.1 hk'
    exact hkk' ▸ hk
  names := by
    intro a ha
    rcases List.mem_append.1 ha with ha | ha
    · exact h.names a ha
    · rw [List.mem_singleton.1 ha]
      exact hchars

theorem Named.put (h : Named as) (hchars : name ≠ [] ∧ ∀ c ∈ name, OpenTag.isNameChar c) (value : Text) :
    Named (as.put name value) := by
  by_cases hmem : name ∈ as.map Prod.fst
  · have hkeys := map_fst_put_of_mem hmem value
    refine ⟨hkeys ▸ h.nodup, fun a ha => ?_⟩
    have hkey : a.1 ∈ as.map Prod.fst := hkeys ▸ List.mem_map_of_mem ha
    obtain ⟨b, hb, hab⟩ := List.mem_map.1 hkey
    exact hab ▸ h.names b hb
  · rw [put_of_notMem hmem]
    exact h.append hmem hchars value

theorem get?_append (as as' : Attributes) (name : Text) :
    get? name (as ++ as') = (as.get? name).or (as'.get? name) := by
  induction as with
  | nil => rfl
  | cons a as ih =>
    obtain ⟨k, v⟩ := a
    rw [List.cons_append, get?, get?]
    split
    · rfl
    · exact ih

/-- An attribute that is not dropped keeps its value. -/
theorem get?_filter {keep : Text × Text → Bool} (h : ∀ v, keep (name, v)) (as : Attributes) :
    get? name (as.filter keep) = as.get? name := by
  induction as with
  | nil => rfl
  | cons a as ih =>
    obtain ⟨k, v⟩ := a
    rw [List.filter_cons, get?]
    split
    · rw [get?, ih]
    · next hdrop =>
      have hne : k ≠ name := by
        rintro rfl
        exact hdrop (h v)
      rw [if_neg hne, ih]

theorem Named.sublist {as' : Attributes} (h : Named as) (hsub : as'.Sublist as) : Named as' where
  nodup := h.nodup.sublist (hsub.map Prod.fst)
  names := fun a ha => h.names a (hsub.subset ha)

end Attributes

theorem OpenTag.named_parseFrom {read : Attributes} {t rest : Text} {tag : OpenTag}
    (h : parseFrom read t = some (tag, rest)) (hread : read.Named) : tag.attributes.Named := by
  -- only what begins with a name character is put in
  have hname : ∀ {c : Char} {r : Text}, isNameChar c →
      c :: r.takeWhile isNameChar ≠ [] ∧ ∀ d ∈ c :: r.takeWhile isNameChar, isNameChar d := by
    intro c r hc
    refine ⟨List.cons_ne_nil _ _, fun d hd => ?_⟩
    rcases List.mem_cons.1 hd with rfl | hd
    · exact hc
    · exact List.mem_takeWhile_imp hd
  fun_induction parseFrom read t with
  | case1 | case5 | case6 => cases h
  | case2 _ _ _ _ ih | case9 _ _ _ _ _ _ _ ih => exact ih h hread
  | case3 | case4 =>
    rw [Option.some.injEq, Prod.mk.injEq] at h
    exact h.1 ▸ hread
  | case7 _ c r _ _ _ hc _ _ value _ _ _ ih => exact ih h (hread.put (hname hc) value)
  | case8 _ c r _ _ _ hc _ _ _ _ _ ih => exact ih h (hread.put (hname hc) [])

namespace Element

variable {name t before rest : Text} {e : Element}

theorem exists_of_afterOpening? {r tail : Text} (h : afterOpening? name r = some tail) :
    ∃ written, r = written ++ tail ∧ Text.sameIgnoringAsciiCase written name := by
  unfold afterOpening? at h
  split at h
  · next c u hread =>
    split at h
    · obtain ⟨written, rfl, hsame⟩ := exists_of_afterName? hread
      obtain rfl := Option.some.inj h
      exact ⟨written, rfl, Text.sameIgnoringAsciiCase_iff.2 hsame⟩
    · cases h
  · cases h

theorem named_of_find? (h : find? name t = some (before, e, rest)) : e.attributes.Named := by
  fun_induction find? name t generalizing before with
  | case1 => cases h
  | case4 _ _ _ _ _ ht | case5 _ _ _ _ _ ht =>
    rw [Option.some.injEq, Prod.mk.injEq, Prod.mk.injEq] at h
    exact h.2.1 ▸ OpenTag.named_parseFrom ht Attributes.named_nil
  | case2 _ _ ih | case3 _ _ _ _ ih | case6 _ _ _ _ _ _ _ _ ih | case7 _ _ _ ih =>
    obtain ⟨b, hb, -⟩ := of_map_prepend h
    exact ih hb

/-- An opening tag begins with the name, in any case of its letters. -/
theorem exists_opening_of_find? (h : find? name t = some (before, e, rest)) :
    ∃ written behind, e.opening = '<' :: (written ++ behind) ∧ Text.sameIgnoringAsciiCase written name := by
  have hread : ∀ {r tail rest : Text} {tag : OpenTag}, afterOpening? name r = some tail →
      OpenTag.parse? tail = some (tag, rest) →
      ∃ written behind, Text.consumed ('<' :: r) rest = '<' :: (written ++ behind) ∧
        Text.sameIgnoringAsciiCase written name := by
    intro r tail rest tag ho ht
    obtain ⟨behind, rfl⟩ := OpenTag.suffix_of_parse? ht
    obtain ⟨written, rfl, hsame⟩ := exists_of_afterOpening? ho
    refine ⟨written, behind, ?_, hsame⟩
    rw [← List.append_assoc, Text.consumed_cons_append]
  fun_induction find? name t generalizing before with
  | case1 => cases h
  | case4 r tail ho tag rest' ht | case5 r tail ho tag rest' ht =>
    rw [Option.some.injEq, Prod.mk.injEq, Prod.mk.injEq] at h
    exact h.2.1 ▸ hread ho ht
  | case2 _ _ ih | case3 _ _ _ _ ih | case6 _ _ _ _ _ _ _ _ ih | case7 _ _ _ ih =>
    obtain ⟨b, hb, -⟩ := of_map_prepend h
    exact ih hb

/-- An opening tag has its attributes only. -/
theorem Opens.unique {o : Text} {as as' : Attributes} (h : Opens name o as) (h' : Opens name o as') : as = as' := by
  obtain ⟨-, tail, ho, ht⟩ := h []
  obtain ⟨-, tail', ho', ht'⟩ := h' []
  obtain rfl : tail = tail' := Option.some.inj (ho.symm.trans ho')
  have htag := congrArg Prod.fst (Option.some.inj (ht.symm.trans ht'))
  exact congrArg OpenTag.attributes htag

end Element

/-! ## Double quotes -/

/-- A value with references for its double quotes. -/
def Text.escapeQuotes (v : Text) : Text := Text.replaceAll ['"'] "&quot;".toList v

theorem Text.escapeQuotes_eq (v : Text) :
    escapeQuotes v = v.flatMap fun c => if c = '"' then "&quot;".toList else [c] :=
  replaceAll_singleton '"' "&quot;".toList v

theorem Text.notMem_escapeQuotes (v : Text) : '"' ∉ escapeQuotes v := by
  rw [escapeQuotes_eq, List.mem_flatMap]
  rintro ⟨c, -, hc⟩
  split at hc
  · exact absurd hc (by decide)
  · next hne => exact hne (List.mem_singleton.1 hc).symm

theorem Text.escapeQuotes_eq_self_iff (v : Text) : escapeQuotes v = v ↔ '"' ∉ v := by
  constructor
  · intro h
    exact h ▸ notMem_escapeQuotes v
  · intro h
    exact replaceAll_of_notMem List.mem_cons_self h

namespace Attributes

variable {as : Attributes}

/-- The attributes with references for the double quotes in their values. -/
def escaped (as : Attributes) : Attributes := as.map fun (k, v) => (k, Text.escapeQuotes v)

theorem escaped_eq_iff (as : Attributes) : as.escaped = as ↔ ∀ a ∈ as, '"' ∉ a.2 := by
  have hmap : as.escaped = as ↔ ∀ a ∈ as, (a.1, Text.escapeQuotes a.2) = id a := by
    rw [← List.map_inj_left, List.map_id]
    rfl
  rw [hmap]
  refine forall₂_congr fun a _ => ?_
  rw [id, Prod.ext_iff, and_iff_right rfl, Text.escapeQuotes_eq_self_iff]

theorem get?_escaped (as : Attributes) (name : Text) :
    as.escaped.get? name = (as.get? name).map Text.escapeQuotes := by
  induction as with
  | nil => rfl
  | cons a as ih =>
    obtain ⟨k, v⟩ := a
    rw [get?]
    split
    · next hk => exact if_pos hk
    · next hk => exact (if_neg hk).trans ih

end Attributes

/-! ## The tag that is written -/

/-- An attribute as it is written in a new tag. -/
def WrittenAttribute.again (a : Text × Text) : WrittenAttribute :=
  ⟨[' '], a.1, Text.escapeQuotes a.2, .quoted [] [] '"'⟩

/-- The tag that is written from attributes. -/
def WrittenTag.again (written : Text) (as : Attributes) : WrittenTag := ⟨written, as.map WrittenAttribute.again, []⟩

theorem Loop.openingTag_eq (written : Text) (as : Attributes) :
    openingTag written as = '<' :: (WrittenTag.again written as).opening := by
  have hattributes : as.flatMap (fun (k, v) =>
      ' ' :: k ++ "=\"".toList ++ Text.replaceAll ['"'] "&quot;".toList v ++ ['"']) =
        (as.map WrittenAttribute.again).flatMap WrittenAttribute.text := by
    rw [List.flatMap_map]
    congr 1
    funext a
    simp [WrittenAttribute.again, WrittenAttribute.text, ValueStyle.write, Text.escapeQuotes]
  rw [openingTag, hattributes]
  simp [WrittenTag.again, WrittenTag.opening, WrittenTag.text]

theorem readAttributes_of_nodup {read : Attributes} {as : List WrittenAttribute}
    (h : (read.map Prod.fst ++ as.map WrittenAttribute.name).Nodup) :
    readAttributes read as = read ++ as.map fun a => (a.name, a.value) := by
  induction as generalizing read with
  | nil => exact (List.append_nil read).symm
  | cons a as ih =>
    have hnew : a.name ∉ read.map Prod.fst := fun hmem =>
      (List.nodup_append.1 h).2.2 _ hmem _ List.mem_cons_self rfl
    have hput : read.put a.name a.value = read ++ [(a.name, a.value)] := Attributes.put_of_notMem hnew a.value
    show readAttributes (read.put a.name a.value) as = _
    rw [hput, ih (by simpa using h)]
    simp

namespace WrittenTag

variable {as : Attributes} {written name : Text}

theorem proper_again (hsame : Text.sameIgnoringAsciiCase written name) (h : as.Named) : (again written as).Proper name := by
  refine ⟨hsame, fun a ha => ?_, fun c hc => absurd hc List.not_mem_nil⟩
  obtain ⟨b, hb, rfl⟩ := List.mem_map.1 ha
  have hgap : IsGap [' '] := by decide
  refine ⟨⟨List.cons_ne_nil _ _, hgap⟩, h.names b hb, ?_⟩
  exact ⟨by decide, by decide, Or.inl rfl, Text.notMem_escapeQuotes b.2⟩

theorem read_again (h : as.Named) : (again written as).read = as.escaped := by
  have hnames : (as.map WrittenAttribute.again).map WrittenAttribute.name = as.map Prod.fst := List.map_map
  have hread : readAttributes [] (as.map WrittenAttribute.again) =
      [] ++ (as.map WrittenAttribute.again).map fun a => (a.name, a.value) :=
    readAttributes_of_nodup (hnames ▸ h.nodup)
  rw [read, again, hread, List.map_map]
  rfl

end WrittenTag

/-- A tag that is written from attributes that were read is an opening tag, with references for the double quotes. -/
theorem Loop.opens_openingTag {name written : Text} {as : Attributes} (hname : Element.IsName name)
    (hsame : Text.sameIgnoringAsciiCase written name) (h : as.Named) :
    ∃ tag, openingTag written as = '<' :: tag ∧ Element.Opens name tag as.escaped := by
  refine ⟨_, openingTag_eq written as, ?_⟩
  rw [← WrittenTag.read_again h]
  exact WrittenTag.opens hname (WrittenTag.proper_again hsame h)

end Pagewright
