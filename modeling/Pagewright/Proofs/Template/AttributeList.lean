import Pagewright.Proofs.Template.OpeningTag

/-!
# Lists of attributes, read back

What stands between the name of a tag and its end is a list of attributes, and a reader who knows where the list
begins gets all of it. Three things live here:

* the reading of a tag at an offset into a longer text (`OpenTag.parseAt?`), and the texts that offsets name
  (`Text.fromOffset?_append`);
* what a list of attributes may look like (`WrittenAttribute.Readable`): the first one needs no white space in front of
  it, since it stands at the offset, and the white space in front of the others keeps them apart;
* such a list is read back as it was written (`OpenTag.parseAt?_written`).
-/

namespace Pagewright

variable {a : WrittenAttribute} {as : List WrittenAttribute} {read : Attributes} {gap r : Text}

/-! ## Offsets -/

theorem Text.fromOffset?_append (s t : Text) : fromOffset? (s ++ t) (size s) = some t := by
  induction s with
  | nil => cases t <;> rfl
  | cons c s ih =>
    have hpos : 0 < c.utf8Size := c.utf8Size_pos
    obtain ⟨n, hn⟩ : ∃ n, size (c :: s) = n + 1 := ⟨c.utf8Size + size s - 1, by rw [size_cons]; omega⟩
    have hsize : size (c :: s) - c.utf8Size = size s := Nat.add_sub_cancel_left _ _
    have hle : c.utf8Size ≤ size (c :: s) := Nat.le_add_right _ _
    rw [hn] at hsize hle
    rw [hn, List.cons_append, fromOffset?, if_pos hle, hsize, ih]

namespace OpenTag

/-- The tag whose attributes begin at an offset, and the offset behind its end. -/
def parseAt? (t : Text) (pos : Nat) : Option (OpenTag × Nat) :=
  ((Text.fromOffset? t pos).bind parse?).map fun (tag, rest) => (tag, Text.size t - Text.size rest)

/-- The end of a tag. -/
def ending (selfClosing : Bool) : Text := if selfClosing then ['/', '>'] else ['>']

/-- Attributes, white space and the end of the tag. -/
def writtenList (as : List WrittenAttribute) (gap : Text) (selfClosing : Bool) : Text :=
  as.flatMap WrittenAttribute.text ++ (gap ++ ending selfClosing)

end OpenTag

/-! ## Attributes -/

/-- An attribute of a list: as it is read back, but for the white space in front of it, which may be missing. -/
def WrittenAttribute.Readable (a : WrittenAttribute) : Prop :=
  IsGap a.gap ∧ (a.name ≠ [] ∧ ∀ c ∈ a.name, OpenTag.isNameChar c) ∧ a.style.Expresses a.value

instance (a : WrittenAttribute) : Decidable a.Readable := inferInstanceAs (Decidable (_ ∧ (_ ∧ _) ∧ _))

theorem WrittenAttribute.Readable.proper (h : a.Readable) (hgap : a.gap ≠ []) : a.Proper := ⟨⟨hgap, h.1⟩, h.2⟩

namespace OpenTag

/-- The first attribute is read with and without white space in front of it. -/
theorem parseFrom_readable (h : a.Readable) (hr : EndsAttribute r) :
    parseFrom read (a.text ++ r) = parseFrom (read.put a.name a.value) r := by
  -- one blank more makes it an attribute that could stand behind another one
  have hproper : WrittenAttribute.Proper { a with gap := ' ' :: a.gap } := by
    refine ⟨⟨List.cons_ne_nil _ _, fun c hc => ?_⟩, h.2⟩
    rcases List.mem_cons.1 hc with rfl | hc
    · decide
    · exact h.1 c hc
  have hblank : parseFrom read (' ' :: (a.text ++ r)) = parseFrom read (a.text ++ r) := parseFrom_blank (by decide)
  rw [← hblank]
  exact parseFrom_written hproper hr

theorem endsAttribute_ending (selfClosing : Bool) (r : Text) : EndsAttribute (ending selfClosing ++ r) := by
  cases selfClosing with
  | false => exact endsAttribute_end r
  | true => exact endsAttribute_selfClosing r

theorem parseFrom_ending (read : Attributes) (selfClosing : Bool) (r : Text) :
    parseFrom read (ending selfClosing ++ r) = some (⟨read, selfClosing⟩, r) := by
  cases selfClosing with
  | false => exact parseFrom_end
  | true => exact parseFrom_selfClosing

/-- The attributes of a list are read one after the other, up to the end of the tag. -/
theorem parseFrom_writtenList (h : ∀ a ∈ as, a.Readable) (hgaps : ∀ a ∈ as.tail, a.gap ≠ []) (hgap : IsGap gap)
    (selfClosing : Bool) (r : Text) :
    parseFrom read (writtenList as gap selfClosing ++ r) = some (⟨readAttributes read as, selfClosing⟩, r) := by
  have hend : EndsAttribute (gap ++ (ending selfClosing ++ r)) :=
    endsAttribute_gap hgap (endsAttribute_ending selfClosing r)
  have hrest : ∀ read, parseFrom read (gap ++ (ending selfClosing ++ r)) = some (⟨read, selfClosing⟩, r) := fun read =>
    (parseFrom_gap hgap).trans (parseFrom_ending read selfClosing r)
  rw [writtenList, List.append_assoc, List.append_assoc]
  cases as with
  | nil => exact hrest read
  | cons a as =>
    have hproper : ∀ b ∈ as, b.Proper := fun b hb => (h b (List.mem_cons_of_mem a hb)).proper (hgaps b hb)
    rw [List.flatMap_cons, List.append_assoc,
      parseFrom_readable (h a List.mem_cons_self) (endsAttribute_flatMap_text hproper hend),
      parseFrom_flatMap_text hproper hend, hrest]
    rfl

/-- **Attributes are read back as they were written.** Wherever in a text a list of attributes with distinct names
begins, however each value is written and whatever follows, the list is read in its order, up to the end of the tag and
no further, and the tag closes itself if and only if it was written so. -/
theorem parseAt?_written (h : ∀ a ∈ as, a.Readable) (hgaps : ∀ a ∈ as.tail, a.gap ≠ []) (hgap : IsGap gap)
    (hnames : (as.map WrittenAttribute.name).Nodup) (selfClosing : Bool) (before behind : Text) :
    parseAt? (before ++ (writtenList as gap selfClosing ++ behind)) (Text.size before) =
      some (⟨as.map fun a => (a.name, a.value), selfClosing⟩,
        Text.size (before ++ writtenList as gap selfClosing)) := by
  have hread : readAttributes [] as = as.map fun a => (a.name, a.value) := readAttributes_of_nodup hnames
  have hoffset : Text.size (before ++ (writtenList as gap selfClosing ++ behind)) - Text.size behind =
      Text.size (before ++ writtenList as gap selfClosing) := by
    rw [← List.append_assoc, Text.size_append, Nat.add_sub_cancel]
  rw [parseAt?, Text.fromOffset?_append, Option.bind_some, parse?, parseFrom_writtenList h hgaps hgap, hread,
    Option.map_some]
  dsimp only
  rw [hoffset]

/-- Attributes in every style, the values of which look like the end of the tag. -/
def stylesSample : List WrittenAttribute :=
  [⟨[' '], "src".toList, "a/>".toList, .quoted [] [] '"'⟩,
    ⟨['\n', ' '], "title".toList, "x > \"y\"".toList, .quoted [' '] [' '] '\''⟩,
    ⟨[' '], "data-id".toList, "/a=1".toList, .unquoted [] [' ']⟩, ⟨['\t'], "wide".toList, [], .bare⟩]

theorem parseAt?_stylesSample :
    ((∀ a ∈ stylesSample, a.Readable) ∧ (∀ a ∈ stylesSample.tail, a.gap ≠ []) ∧ IsGap [] ∧
      (stylesSample.map WrittenAttribute.name).Nodup) ∧
    parseAt? ("<include".toList ++ (writtenList stylesSample [] true ++ "rest".toList)) 8 =
      some (⟨[("src".toList, "a/>".toList), ("title".toList, "x > \"y\"".toList), ("data-id".toList, "/a=1".toList),
        ("wide".toList, [])], true⟩, 58) := by
  have hread : ∀ a ∈ stylesSample, a.Readable := by decide +kernel
  have hgaps : ∀ a ∈ stylesSample.tail, a.gap ≠ [] := by decide
  have hgap : IsGap [] := by decide
  have hnames : (stylesSample.map WrittenAttribute.name).Nodup := by decide
  exact ⟨⟨hread, hgaps, hgap, hnames⟩,
    parseAt?_written hread hgaps hgap hnames true "<include".toList "rest".toList⟩

end OpenTag

end Pagewright
