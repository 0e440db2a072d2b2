import Pagewright.Proofs.Template.OpeningTag

/-!
# The text of a tag

The scanner reads a tag up to its end and no further. Three things live here:

* the text that the attributes of a tag are read from (`OpenTag.TagText`): what follows it does not matter, and it ends
  in a `>`, with a slash in front of it if and only if the tag closes itself;
* the text behind the `<` of an opening tag (`Element.IsOpening`), and that of a closing tag, which is a name and white
  space between a slash and a `>`;
* what the scanner finds is made of such texts (`Element.isScanned_of_find?`).
-/

namespace Pagewright

theorem IsGap.slash_notMem {gap : Text} (h : IsGap gap) : '/' ∉ gap := fun hmem => absurd (h '/' hmem) (by decide)

namespace OpenTag

variable {read read' : Attributes} {tag : OpenTag} {name value u w t r rest x : Text} {c : Char}

/-! ## Values -/

/-- A value that is not in quotes ends before a `>` at the latest, and does not depend on what is behind that. -/
theorem bareValue_append_right (h : '>' ∈ t) (x : Text) : bareValue (t ++ x) = ((bareValue t).1, (bareValue t).2 ++ x) := by
  have hstop : isBareChar '>' = false := by decide
  obtain ⟨d, s, hdrop⟩ := List.exists_cons_of_ne_nil (List.ne_nil_of_mem (Text.mem_dropWhile_of_mem h hstop))
  unfold bareValue
  rw [Text.takeWhile_append_of_mem h hstop, Text.dropWhile_append_of_mem h hstop, hdrop]
  rw [List.cons_append]
  dsimp only
  by_cases hslash : (t.takeWhile isBareChar).getLast? = some '/' ∧ d = '>'
  · obtain ⟨hlast, rfl⟩ := hslash
    rw [hlast]
    rfl
  · split
    · next hlast hrest => exact absurd ⟨hlast, (List.cons.inj hrest).1⟩ hslash
    · split
      · next hlast hrest => exact absurd ⟨hlast, (List.cons.inj hrest).1⟩ hslash
      · rfl

/-- It does not end in the slash of a tag that closes itself. -/
theorem head?_bareValue_of_slash (h : (bareValue t).1.getLast? = some '/') : (bareValue t).2.head? ≠ some '>' := by
  unfold bareValue at h ⊢
  dsimp only at h ⊢
  split
  · simp
  · next hnot =>
    intro hhead
    obtain ⟨s, hs⟩ := List.head?_eq_some_iff.1 hhead
    split at h
    · next hlast hrest => exact hnot _ hlast hrest
    · exact hnot s h hs

/-- What is read as the value does not depend on what follows the rest of the tag, and no slash of it stands in front of
the end of the tag. -/
theorem exists_of_attributeValue? (h : attributeValue? t = some (value, w ++ rest)) (hw : '>' ∈ w) :
    ∃ u, t = u ++ (w ++ rest) ∧ (u.getLast? = some '/' → w.head? ≠ some '>') ∧
      ∀ z, attributeValue? (u ++ (w ++ z)) = some (value, w ++ z) := by
  cases t with
  | nil =>
    have hnil : w ++ rest = [] := (congrArg Prod.snd (Option.some.inj h)).symm
    rw [(List.append_eq_nil_iff.1 hnil).1] at hw
    cases hw
  | cons c r =>
    rw [attributeValue?] at h
    split at h
    · next hquote =>
      refine ⟨c :: (value ++ [c]), by simp [splitOnce?_eq_append h], ?_, fun z => ?_⟩
      · rw [← List.cons_append, List.getLast?_concat, Option.some.injEq]
        rintro rfl
        exact absurd hquote (by decide)
      · rw [List.cons_append, List.append_assoc, attributeValue?, if_pos hquote]
        exact Text.splitOnce?_append (Text.notMem_of_splitOnce? h) _
    · next hquote =>
      have hvalue := Option.some.inj h
      have htext : value ++ w ++ rest = c :: r := by
        rw [List.append_assoc, ← bareValue_append (c :: r), hvalue]
      have hbare : bareValue (value ++ w) = (value, w) := by
        rw [← htext, bareValue_append_right (List.mem_append_right value hw), Prod.mk.injEq] at hvalue
        exact Prod.ext hvalue.1 (List.append_cancel_right hvalue.2)
      refine ⟨value, by rw [← htext, List.append_assoc], fun hslash => ?_, fun z => ?_⟩
      · have hhead := head?_bareValue_of_slash (t := value ++ w)
        rw [hbare] at hhead
        exact hhead hslash
      · obtain ⟨d, s, hds⟩ := List.exists_cons_of_ne_nil (List.ne_nil_of_mem (List.mem_append_right value hw))
        have hd : d = c := by
          rw [hds, List.cons_append, List.cons.injEq] at htext
          exact htext.1
        have hread := bareValue_append_right (List.mem_append_right value hw) z
        rw [hbare] at hread
        rw [← List.append_assoc, ← hread, hds, List.cons_append, attributeValue?, hd, if_neg hquote]

/-! ## Tags -/

theorem parseFrom_skip (hblank : Text.isBlank c = false) (hend : c ≠ '>') (hslash : c = '/' → r.head? ≠ some '>')
    (hname : isNameChar c = false) : parseFrom read (c :: r) = parseFrom read r := by
  rw [parseFrom.eq_def]
  refine (if_neg (by simp [hblank])).trans ((if_neg hend).trans ((if_neg ?_).trans (if_neg (by simp [hname]))))
  simpa using hslash

theorem slash_notMem_of_isNameChar (h : ∀ c ∈ name, isNameChar c) : '/' ∉ name := fun hmem =>
  absurd (h '/' hmem) (by decide +kernel)

theorem exists_gap_append_trimStart (t : Text) : ∃ gap, IsGap gap ∧ t = gap ++ Text.trimStart t :=
  ⟨t.takeWhile Text.isBlank, fun _ hc => List.mem_takeWhile_imp hc, List.takeWhile_append_dropWhile.symm⟩

/-- The text from which a tag is read, behind its name: whatever follows, the tag is read and what follows is left. It
ends in a `>`, and a slash in front of that is what makes the tag close itself. -/
structure TagText (read : Attributes) (w : Text) (tag : OpenTag) : Prop where
  reads : ∀ z, parseFrom read (w ++ z) = some (tag, z)
  ends : ∃ v, w = v ++ ['>'] ∧ (tag.selfClosing ↔ v.getLast? = some '/')

namespace TagText

theorem mem (h : TagText read w tag) : '>' ∈ w := by
  obtain ⟨v, rfl, -⟩ := h.ends
  exact List.mem_append_right v List.mem_cons_self

/-- More text in front of a tag, with no slash that would stand in front of its end. -/
theorem append_left (h : TagText read' w tag) (hreads : ∀ z, parseFrom read (u ++ (w ++ z)) = parseFrom read' (w ++ z))
    (hlast : u.getLast? = some '/' → w.head? ≠ some '>') : TagText read (u ++ w) tag where
  reads := by
    intro z
    rw [List.append_assoc, hreads, h.reads]
  ends := by
    obtain ⟨v, rfl, hslash⟩ := h.ends
    refine ⟨u ++ v, (List.append_assoc u v _).symm, hslash.trans ?_⟩
    rw [List.getLast?_append]
    cases v with
    | nil => simpa using hlast
    | cons d v => simp [List.getLast?_cons]

theorem cons (h : TagText read w tag) (hreads : ∀ z, parseFrom read (c :: (w ++ z)) = parseFrom read (w ++ z))
    (hlast : c = '/' → w.head? ≠ some '>') : TagText read (c :: w) tag :=
  h.append_left (u := [c]) hreads (by simpa using hlast)

theorem head?_append (h : TagText read w tag) (z : Text) : (w ++ z).head? = w.head? :=
  List.head?_append_of_ne_nil _ (List.ne_nil_of_mem h.mem)

/-- An attribute in front of a tag, with its value behind a `=`. -/
theorem valued (h : TagText (read.put name value) w tag) (hname : ∀ c ∈ name, isNameChar c) (hne : name ≠ [])
    (htrim : Text.trimStart t = '=' :: r) (hvalue : attributeValue? (Text.trimStart r) = some (value, w ++ rest)) :
    ∃ u, t = u ++ rest ∧ TagText read (name ++ u) tag := by
  obtain ⟨v, hr, hlast, hreads⟩ := exists_of_attributeValue? hvalue h.mem
  obtain ⟨before, hbefore, ht⟩ := exists_gap_append_trimStart t
  obtain ⟨behind, hbehind, hr'⟩ := exists_gap_append_trimStart r
  have hmem : '>' ∈ v ++ w := List.mem_append_right v h.mem
  refine ⟨before ++ '=' :: (behind ++ (v ++ w)), by rw [ht, htrim, hr', hr]; simp, ?_⟩
  -- the value does not begin with white space, whatever follows the tag
  have htrimmed : ∀ z, Text.trimStart (v ++ (w ++ z)) = Text.trimStart (v ++ w) ++ z := by
    intro z
    rw [← List.append_assoc]
    exact Text.dropWhile_append_of_mem hmem (by decide)
  have hstart : Text.trimStart (v ++ w) = v ++ w := by
    obtain ⟨d, s, hds⟩ := List.exists_cons_of_ne_nil (List.ne_nil_of_mem hmem)
    have hd : Text.isBlank d = false := by
      refine Text.of_mem_head?_dropWhile (l := r) ?_
      show d ∈ (Text.trimStart r).head?
      rw [hr, ← List.append_assoc, hds]
      rfl
    rw [hds, trimStart_cons_of_not_isBlank hd]
  have htext : name ++ (before ++ '=' :: (behind ++ (v ++ w))) = name ++ (before ++ '=' :: (behind ++ v)) ++ w := by simp
  rw [htext]
  refine h.append_left (fun z => ?_) fun hslash => hlast ?_
  · have hsplit : name ++ (before ++ '=' :: (behind ++ v)) ++ (w ++ z) =
        name ++ (before ++ '=' :: (behind ++ (v ++ (w ++ z)))) := by simp
    rw [hsplit]
    refine parseFrom_valued (r := behind ++ (v ++ (w ++ z))) (isName_of_isNameChar hne hname) ?_ ?_
    · rw [trimStart_gap hbefore, trimStart_cons_of_not_isBlank (by decide)]
    · rw [trimStart_gap hbehind, htrimmed, hstart, List.append_assoc]
      exact hreads z
  · -- what is in front of the value ends in white space or in the `=`
    rw [← List.append_assoc, List.getLast?_append_of_ne_nil _ (List.cons_ne_nil _ _), ← List.cons_append,
      List.getLast?_append] at hslash
    cases hv : v.getLast? with
    | some c => rwa [hv] at hslash
    | none =>
      exfalso
      rw [hv, Option.none_or] at hslash
      rcases List.mem_cons.1 (List.mem_of_getLast? hslash) with heq | hmem
      · exact absurd heq (by decide)
      · exact hbehind.slash_notMem hmem

/-- An attribute in front of a tag, without a value. -/
theorem bare (h : TagText (read.put name []) w tag) (hname : ∀ c ∈ name, isNameChar c) (hne : name ≠ [])
    (ht : ∀ d ∈ t.head?, isNameChar d = false) (htrim : Text.trimStart t = w ++ rest) (heq : w.head? ≠ some '=') :
    ∃ u, t = u ++ rest ∧ TagText read (name ++ u) tag := by
  obtain ⟨gap, hgap, htext⟩ := exists_gap_append_trimStart t
  obtain ⟨d, s, rfl⟩ := List.exists_cons_of_ne_nil (List.ne_nil_of_mem h.mem)
  refine ⟨gap ++ d :: s, by rw [htext, htrim, List.append_assoc], ?_⟩
  have hd : Text.isBlank d = false := Text.of_mem_head?_dropWhile (l := t) (by rw [← Text.trimStart, htrim]; rfl)
  have htrimmed : ∀ z, Text.trimStart (gap ++ (d :: s ++ z)) = d :: s ++ z := by
    intro z
    rw [trimStart_gap hgap, List.cons_append, trimStart_cons_of_not_isBlank hd]
  have hhead : ∀ z, ∀ x ∈ (gap ++ (d :: s ++ z)).head?, isNameChar x = false := by
    intro z x hx
    refine ht x ?_
    rw [htext, htrim]
    cases gap with
    | nil => exact hx
    | cons b gap => exact hx
  rw [← List.append_assoc]
  refine h.append_left (fun z => ?_) fun hslash => absurd (List.mem_of_getLast? hslash) ?_
  · rw [List.append_assoc, parseFrom_bare (isName_of_isNameChar hne hname) (hhead z) (htrimmed z) (by simpa using heq),
      htrimmed]
  · rw [List.mem_append, not_or]
    exact ⟨slash_notMem_of_isNameChar hname, hgap.slash_notMem⟩

end TagText

/-- A tag is read from a text of its own. -/
theorem exists_tagText (h : parseFrom read t = some (tag, rest)) : ∃ w, t = w ++ rest ∧ TagText read w tag := by
  have hchars : ∀ {c : Char} {r : Text}, isNameChar c → ∀ d ∈ c :: r.takeWhile isNameChar, isNameChar d := by
    intro c r hc d hd
    rcases List.mem_cons.1 hd with rfl | hd
    · exact hc
    · exact List.mem_takeWhile_imp hd
  fun_induction parseFrom read t with
  | case1 | case5 | case6 => cases h
  | case2 read c r hblank ih =>
    obtain ⟨w, rfl, hw⟩ := ih h
    refine ⟨c :: w, rfl, hw.cons (fun z => parseFrom_blank hblank) ?_⟩
    rintro rfl
    exact absurd hblank (by decide)
  | case3 read r =>
    obtain ⟨rfl, rfl⟩ := Prod.mk.inj (Option.some.inj h)
    exact ⟨['>'], rfl, fun z => parseFrom_end, [], rfl, by simp⟩
  | case4 read c r _ _ hslash =>
    obtain ⟨rfl, rfl⟩ := Prod.mk.inj (Option.some.inj h)
    rw [Bool.and_eq_true, decide_eq_true_eq, decide_eq_true_eq] at hslash
    obtain ⟨rfl, hhead⟩ := hslash
    obtain ⟨s, rfl⟩ := List.head?_eq_some_iff.1 hhead
    exact ⟨['/', '>'], rfl, fun z => parseFrom_selfClosing, ['/'], rfl, by simp⟩
  | case7 read c r _ _ _ hname name r' value rest' hvalue htrim ih =>
    obtain ⟨w, rfl, hw⟩ := ih h
    obtain ⟨u, hu, hread⟩ := hw.valued (hchars hname) (List.cons_ne_nil _ _) htrim hvalue
    refine ⟨name ++ u, ?_, hread⟩
    rw [List.append_assoc, ← hu, List.cons_append, List.takeWhile_append_dropWhile]
  | case8 read c r _ _ _ hname name d r' htrim hd ih =>
    obtain ⟨w, hw', hw⟩ := ih h
    have hhead : w.head? ≠ some '=' := by
      rw [← hw.head?_append rest, ← hw']
      simpa using hd
    obtain ⟨u, hu, hread⟩ := hw.bare (hchars hname) (List.cons_ne_nil _ _)
      (fun x hx => Text.of_mem_head?_dropWhile hx) (htrim.trans hw') hhead
    refine ⟨name ++ u, ?_, hread⟩
    rw [List.append_assoc, ← hu, List.cons_append, List.takeWhile_append_dropWhile]
  | case9 read c r hblank hend hslash hname ih =>
    obtain ⟨w, rfl, hw⟩ := ih h
    have hhead : c = '/' → w.head? ≠ some '>' := by
      rw [← hw.head?_append rest]
      simpa using hslash
    refine ⟨c :: w, rfl, hw.cons (fun z => ?_) hhead⟩
    exact parseFrom_skip (by simpa using hblank) hend (by rwa [hw.head?_append]) (by simpa using hname)

end OpenTag

/-! ## Tags of a name -/

namespace Element

variable {name t r o w z before body closing tail rest : Text} {e : Element} {tag : OpenTag} {depth : Nat}

/-- What is written for a name of letters has no signs in it. -/
theorem notMem_of_same {d : Char} (hname : ∀ c ∈ name, c.isAlpha) (h : Text.sameIgnoringAsciiCase w name)
    (hd : d.toNat < 65) : d ∉ w := by
  intro hmem
  have hself : Text.asciiLower d = d := if_neg (by simp; omega)
  have hmap : d ∈ name.map Text.asciiLower := by
    rw [← Text.sameIgnoringAsciiCase_iff.1 h, ← hself]
    exact List.mem_map_of_mem hmem
  obtain ⟨c, hc, hlower⟩ := List.mem_map.1 hmap
  exact Text.asciiLower_ne_of_isAlpha (hname c hc) hd hlower

/-- A name is read no further than to its end. -/
theorem afterName?_append (h : afterName? name t = some r) (z : Text) : afterName? name (t ++ z) = some (r ++ z) := by
  obtain ⟨w, rfl, hsame⟩ := exists_of_afterName? h
  rw [List.append_assoc, afterName?_of_same (Text.sameIgnoringAsciiCase_iff.2 hsame)]

theorem afterOpening?_eq_some_iff : afterOpening? name r = some tail ↔
    afterName? name r = some tail ∧ ∃ c ∈ tail.head?, Text.isBlank c ∨ c = '>' ∨ c = '/' := by
  unfold afterOpening?
  split
  · next c u hread =>
    rw [hread, Option.some.injEq]
    constructor
    · intro h
      split at h
      · next hc =>
        obtain rfl := Option.some.inj h
        exact ⟨rfl, c, rfl, by simpa [or_assoc] using hc⟩
      · cases h
    · rintro ⟨rfl, d, hd, hends⟩
      obtain rfl : c = d := Option.some.inj hd
      exact if_pos (by simpa [or_assoc] using hends)
  · next hnot =>
    constructor
    · intro h
      cases h
    · rintro ⟨hread, d, hd, -⟩
      obtain ⟨s, rfl⟩ := List.head?_eq_some_iff.1 hd
      exact absurd hread (hnot d s)

theorem afterOpening?_append (h : afterOpening? name r = some tail) (z : Text) :
    afterOpening? name (r ++ z) = some (tail ++ z) := by
  obtain ⟨hread, c, hc, hends⟩ := afterOpening?_eq_some_iff.1 h
  exact afterOpening?_eq_some_iff.2 ⟨afterName?_append hread z, c, List.mem_head?_append_of_mem_head? hc, hends⟩

/-- The text, behind its `<`, is an opening tag, whatever follows. -/
def IsOpening (name o : Text) (tag : OpenTag) : Prop :=
  ∀ r, ∃ tail, afterOpening? name (o ++ r) = some tail ∧ OpenTag.parse? tail = some (tag, r)

theorem exists_isOpening (ho : afterOpening? name r = some tail) (ht : OpenTag.parse? tail = some (tag, rest)) :
    ∃ o, r = o ++ rest ∧ IsOpening name o tag := by
  obtain ⟨w, rfl, hw⟩ := OpenTag.exists_tagText ht
  obtain ⟨written, rfl, hsame⟩ := exists_of_afterOpening? ho
  obtain ⟨-, c, hc, hends⟩ := afterOpening?_eq_some_iff.1 ho
  refine ⟨written ++ w, (List.append_assoc _ _ _).symm, fun z => ⟨w ++ z, ?_, hw.reads z⟩⟩
  rw [List.append_assoc, afterOpening?_eq_some_iff]
  refine ⟨afterName?_of_same hsame _, c, ?_, hends⟩
  rw [hw.head?_append] at hc ⊢
  exact hc

namespace IsOpening

/-- It begins with the name, in any case of its letters. -/
theorem exists_name (h : IsOpening name o tag) :
    ∃ written behind, o = written ++ behind ∧ Text.sameIgnoringAsciiCase written name := by
  obtain ⟨tail, ho, -⟩ := h []
  obtain ⟨written, htext, hsame⟩ := exists_of_afterOpening? ho
  exact ⟨written, tail, by rw [← htext, List.append_nil], hsame⟩

/-- It ends in a `>`, with a slash in front of it if and only if the tag closes itself. -/
theorem ends (h : IsOpening name o tag) (hname : ∀ c ∈ name, c.isAlpha) :
    ∃ v, o = v ++ ['>'] ∧ (tag.selfClosing ↔ v.getLast? = some '/') := by
  obtain ⟨tail, ho, ht⟩ := h []
  obtain ⟨written, htext, hsame⟩ := exists_of_afterOpening? ho
  obtain ⟨w, rfl, hw⟩ := OpenTag.exists_tagText ht
  obtain ⟨v, rfl, hslash⟩ := hw.ends
  refine ⟨written ++ v, by simpa using htext, hslash.trans ?_⟩
  -- a name of letters does not end in a slash
  have hwritten : written.getLast? ≠ some '/' := fun hlast =>
    notMem_of_same hname hsame (by decide) (List.mem_of_getLast? hlast)
  rw [List.getLast?_append]
  cases v.getLast? with
  | none => simpa using hwritten
  | some c => exact Iff.rfl

end IsOpening

/-- A closing tag is a name and white space. -/
theorem exists_of_afterClosing? (h : afterClosing? name r = some rest) :
    ∃ closing : WrittenEnd, closing.Proper name ∧ r = closing.text ++ rest := by
  unfold afterClosing? at h
  split at h
  · next u =>
    split at h
    · next u' hread =>
      split at h
      · next rest' htrim =>
        obtain rfl := Option.some.inj h
        obtain ⟨written, rfl, hsame⟩ := exists_of_afterName? hread
        obtain ⟨gap, hgap, hu⟩ := OpenTag.exists_gap_append_trimStart u'
        refine ⟨⟨written, gap⟩, ⟨Text.sameIgnoringAsciiCase_iff.2 hsame, hgap⟩, ?_⟩
        rw [hu, htrim]
        simp [WrittenEnd.text]
      · cases h
    · cases h
  · cases h

/-! ## Elements that are found -/

/-- The opening tag of an element, as it was read. -/
def openTag (e : Element) : OpenTag := ⟨e.attributes, e.content.isNone⟩

/-- What the scanner makes an element of: an opening tag that closes itself if and only if there is no body, and a
closing tag behind the body. -/
structure IsScanned (name : Text) (e : Element) : Prop where
  opening : ∃ o, e.opening = '<' :: o ∧ IsOpening name o e.openTag
  closing : ∀ c ∈ e.content, ∃ closing : WrittenEnd, closing.Proper name ∧ c.2 = '<' :: closing.text

theorem IsScanned.exists_text (h : e.IsScanned name) : ∃ u, e.text = '<' :: u := by
  obtain ⟨⟨o, ho, -⟩, -⟩ := h
  obtain ⟨opening, attributes, content⟩ := e
  obtain rfl : opening = '<' :: o := ho
  cases content with
  | none => exact ⟨o, rfl⟩
  | some c => exact ⟨o ++ c.1 ++ c.2, rfl⟩

theorem exists_of_closing? (h : closing? name depth t = some (body, closing, rest)) :
    ∃ written : WrittenEnd, written.Proper name ∧ closing = '<' :: written.text := by
  fun_induction closing? name depth t generalizing body with
  | case1 => cases h
  | case2 r rest' hc =>
    obtain ⟨written, hwritten, rfl⟩ := exists_of_afterClosing? hc
    simp only [Option.some.injEq, Prod.mk.injEq] at h
    refine ⟨written, hwritten, ?_⟩
    rw [← h.2.1, Text.consumed_cons_append]
  | case3 _ _ _ _ _ ih | case4 _ _ _ _ _ _ _ _ ih | case5 _ _ _ _ _ _ ih | case6 _ _ _ _ ih | case7 _ _ _ _ ih =>
    obtain ⟨b, hb, -⟩ := of_map_prepend h
    exact ih hb

theorem isScanned_of_find? (h : find? name t = some (before, e, rest)) : e.IsScanned name := by
  fun_induction find? name t generalizing before with
  | case1 => cases h
  | case4 r tail ho tag rest' ht hself =>
    obtain ⟨o, rfl, hopen⟩ := exists_isOpening ho ht
    simp only [Option.some.injEq, Prod.mk.injEq] at h
    obtain ⟨-, rfl, rfl⟩ := h
    obtain ⟨attributes, selfClosing⟩ := tag
    obtain rfl : selfClosing = true := hself
    exact ⟨⟨o, Text.consumed_cons_append _ _ _, hopen⟩, fun c hc => by cases hc⟩
  | case5 r tail ho tag rest' ht hself body closing after hclosing =>
    obtain ⟨o, rfl, hopen⟩ := exists_isOpening ho ht
    simp only [Option.some.injEq, Prod.mk.injEq] at h
    obtain ⟨-, rfl, rfl⟩ := h
    obtain ⟨attributes, selfClosing⟩ := tag
    obtain rfl : selfClosing = false := Bool.eq_false_iff.2 hself
    refine ⟨⟨o, Text.consumed_cons_append _ _ _, hopen⟩, fun c hc => ?_⟩
    rw [← Option.some.inj hc]
    exact exists_of_closing? hclosing
  | case2 _ _ ih | case3 _ _ _ _ ih | case6 _ _ _ _ _ _ _ _ ih | case7 _ _ _ ih =>
    obtain ⟨b, hb, -⟩ := of_map_prepend h
    exact ih hb

end Element

end Pagewright
