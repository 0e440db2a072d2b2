import Pagewright.Proofs.Content.Data
import Pagewright.Proofs.Json.Escapes
import Pagewright.Proofs.Template.Element
import Pagewright.Proofs.Template.Tag

/-!
# Reading the element with the data

A script can take the data of a document from the attributes of an element (`Site.elementData?`). There a
backslash in front of an apostrophe is taken away again. But in a tag, unlike in a script, a backslash has no
meaning: the value ends at the apostrophe behind it.

`elementData?_staticElement_iff` says which data comes through: that without an apostrophe. It is not enough
to see that the value ends too early, as the text behind it could go on with an attribute of the same name
whose value is right. The quotes of the JSON texts are counted instead: all of them are needed for the two
values, and the one that ended too early has taken some.
-/

namespace Pagewright

open Json

/-! ## Apostrophes in JSON -/

namespace Json

variable {w p q s : Text} {ss : List Text} {c : Char}

private theorem apostrophe_notMem_escapeChar (h : c ≠ '\'') : '\'' ∉ escapeChar c := by
  by_cases hc : isPlain c
  · rw [escapeChar_of_isPlain hc, List.mem_singleton]
    exact Ne.symm h
  · have hcontrol : ∀ n < 32, '\'' ∉ escapeChar (Char.ofNat n) := by decide
    rcases not_isPlain_cases hc with rfl | rfl | ⟨n, hn, rfl⟩
    · decide
    · decide
    · exact hcontrol n hn

private theorem apostrophe_mem_escape_iff : '\'' ∈ s.flatMap escapeChar ↔ '\'' ∈ s := by
  rw [List.mem_flatMap]
  constructor
  · rintro ⟨c, hc, hmem⟩
    by_cases h : c = '\''
    · exact h ▸ hc
    · exact absurd hmem (apostrophe_notMem_escapeChar h)
  · intro h
    exact ⟨'\'', h, by decide⟩

/-- An apostrophe stands in a string. -/
theorem apostrophe_mem_compact_iff (v : Json) : '\'' ∈ v.compact ↔ ∃ s ∈ v.strings, '\'' ∈ s := by
  have h : ['\''] <:+: [] ++ v.compact ↔ ∃ s ∈ v.strings, ['\''] <:+: s.flatMap escapeChar :=
    (written_compact v).infix_append_iff (List.nil_subset bareChars) (by decide)
      ⟨'\'', by decide, by decide⟩
  simpa only [List.nil_append, List.singleton_infix_iff, apostrophe_mem_escape_iff] using h

/-- The string in which an apostrophe stands has begun with a quote. -/
theorem Written.quote_mem (h : Written w ss) (hw : w = p ++ '\'' :: q) : '"' ∈ p := by
  induction h generalizing p with
  | nil => simp at hw
  | @bare c w ss hc _ ih =>
    cases p with
    | nil =>
      rw [List.nil_append, List.cons.injEq] at hw
      exact absurd (hw.1 ▸ hc) (by decide)
    | cons d p =>
      rw [List.cons_append, List.cons.injEq] at hw
      exact List.mem_cons_of_mem d (ih hw.2)
  | @quoted w ss s _ _ =>
    cases p with
    | nil =>
      rw [List.nil_append, Json.quote, List.cons_append, List.cons_append, List.cons.injEq] at hw
      exact absurd hw.1 (by decide)
    | cons d p =>
      rw [Json.quote, List.cons_append, List.cons_append, List.cons_append, List.cons.injEq] at hw
      exact hw.1 ▸ List.mem_cons_self

end Json

/-! ## Values of attributes -/

namespace Site

variable {v : Json} {t p q : Text}

/-- A text with the apostrophes taken out of their escapes. -/
def unquoted (t : Text) : Text := Text.replaceAll ['\\', '\''] ['\''] t

/-- The texts that a script finds in the element with the data of a document; the element has four attributes,
and no others. -/
def elementData? (t : Text) : Option (Text × Text) := do
  let t ← Text.after? "<div".toList t
  let (tag, _) ← OpenTag.parse? t
  if tag.attributes.map Prod.fst =
      ["id".toList, "style".toList, "data-toc".toList, "data-frontmatter".toList] then
    let toc ← tag.attributes.get? "data-toc".toList
    let frontmatter ← tag.attributes.get? "data-frontmatter".toList
    return (unquoted toc, unquoted frontmatter)
  else none

theorem unquoted_of_notMem (h : '\'' ∉ t) : unquoted t = t :=
  Text.replaceAll_of_notMem (c := '\'') (by decide) h

theorem singleQuoted_of_notMem (h : '\'' ∉ v.compact) : singleQuoted v = v.compact :=
  Text.replaceAll_of_notMem List.mem_cons_self h

/-- A backslash is put in front of the first apostrophe. -/
theorem singleQuoted_of_eq (hv : v.compact = p ++ '\'' :: q) (hp : '\'' ∉ p) :
    singleQuoted v = p ++ '\\' :: '\'' :: Text.replaceAll ['\''] ['\\', '\''] q := by
  have hself : (p.flatMap fun d => if d = '\'' then ['\\', '\''] else [d]) = p := by
    rw [List.flatMap_congr fun c hc => if_neg (ne_of_mem_of_not_mem hc hp), List.flatMap_singleton']
  unfold singleQuoted
  rw [hv, Text.replaceAll_singleton, Text.replaceAll_singleton, List.flatMap_append, List.flatMap_cons, hself]
  rfl

/-- A value with an apostrophe ends there. If the tag has the whole value nevertheless, it has lost quotes. -/
theorem count_lt_of_apostrophe {read : Attributes} {name rest r x : Text} {tag : OpenTag}
    (hname : OpenTag.IsName name) (hread : read.get? name = none) (hv : '\'' ∈ v.compact)
    (h : OpenTag.parseFrom read (name ++ '=' :: '\'' :: (singleQuoted v ++ rest)) = some (tag, r))
    (hx : tag.attributes.get? name = some x) (hxv : unquoted x = v.compact) :
    tag.attributes.count '"' < read.count '"' + v.compact.count '"' + rest.count '"' := by
  obtain ⟨p, q, hpq, hp⟩ := List.eq_append_cons_of_mem hv
  have hend : '\'' ∉ p ++ ['\\'] := by
    simpa using hp
  have htext : singleQuoted v ++ rest =
      (p ++ ['\\']) ++ '\'' :: (Text.replaceAll ['\''] ['\\', '\''] q ++ rest) := by
    rw [singleQuoted_of_eq hpq hp]
    simp
  rw [htext, OpenTag.parseFrom_quoted (Or.inr rfl) hname hend] at h
  have hput := Attributes.count_put name (p ++ ['\\']) '"' read
  rw [hread, Option.getD_none, List.count_nil] at hput
  rcases OpenTag.get?_parseFrom (c := '"') h (Attributes.get?_put_self name _ read) with hkept | hlost
  · -- what was read before the apostrophe is not the value
    rw [hx, Option.some.injEq] at hkept
    rw [hkept, unquoted_of_notMem hend] at hxv
    exact absurd (hxv ▸ hv) hend
  · have hq : (Text.replaceAll ['\''] ['\\', '\''] q).count '"' ≤ q.count '"' :=
      Text.count_replaceAll_le (by decide) q
    have hfirst : 0 < p.count '"' := List.count_pos_iff.2 ((written_compact v).quote_mem hpq)
    have hcount : v.compact.count '"' = p.count '"' + q.count '"' := by
      rw [hpq, List.count_append, List.count_cons]
      rfl
    rw [List.count_append] at hlost hput
    rw [List.count_append] at hlost
    omega

/-! ## The element -/

variable {toc : List Markdown.TocEntry} {fields : Fields}

private theorem isName_id : OpenTag.IsName "id".toList := ⟨by decide +kernel, 'i', ['d'], by decide⟩

private theorem isName_style : OpenTag.IsName "style".toList :=
  ⟨by decide +kernel, 's', "tyle".toList, by decide⟩

private theorem isName_toc : OpenTag.IsName "data-toc".toList :=
  ⟨by decide +kernel, 'd', "ata-toc".toList, by decide⟩

private theorem isName_frontmatter : OpenTag.IsName "data-frontmatter".toList :=
  ⟨by decide +kernel, 'd', "ata-frontmatter".toList, by decide⟩

/-- The two attributes of the element that are the same for all documents. -/
def elementFront : Attributes :=
  [("id".toList, "static-content".toList), ("style".toList, "display:none;".toList)]

/-- What follows the value of the first attribute with data. -/
private def behindToc (fields : Fields) : Text :=
  ' ' :: ("data-frontmatter".toList ++ '=' :: '\'' :: (singleQuoted (.object fields) ++ "'></div>".toList))

private theorem parse?_staticElement (toc : List Markdown.TocEntry) (fields : Fields) :
    ∃ t, Text.after? "<div".toList (staticElement toc fields) = some t ∧
      OpenTag.parse? t = OpenTag.parseFrom elementFront ("data-toc".toList ++ '=' :: '\'' ::
        (singleQuoted (tocJson toc) ++ '\'' :: behindToc fields)) := by
  refine ⟨' ' :: ("id".toList ++ '=' :: '\'' :: ("static-content".toList ++ '\'' ::
    (' ' :: ("style".toList ++ '=' :: '\'' :: ("display:none;".toList ++ '\'' :: (' ' ::
      ("data-toc".toList ++ '=' :: '\'' :: (singleQuoted (tocJson toc) ++ '\'' :: behindToc fields)))))))),
    ?_, ?_⟩
  · rw [Text.after?_eq_some_iff]
    unfold staticElement behindToc
    simp
  · have hblank : Text.isBlank ' ' = true := by decide
    rw [OpenTag.parse?, OpenTag.parseFrom_blank hblank,
      OpenTag.parseFrom_quoted (Or.inr rfl) isName_id (by decide), OpenTag.parseFrom_blank hblank,
      OpenTag.parseFrom_quoted (Or.inr rfl) isName_style (by decide), OpenTag.parseFrom_blank hblank]
    rfl

/-- A value without an apostrophe is read, and then the next attribute. -/
private theorem parseFrom_toc (h : '\'' ∉ (tocJson toc).compact) :
    OpenTag.parseFrom elementFront ("data-toc".toList ++ '=' :: '\'' ::
        (singleQuoted (tocJson toc) ++ '\'' :: behindToc fields)) =
      OpenTag.parseFrom (elementFront.put "data-toc".toList (tocJson toc).compact)
        ("data-frontmatter".toList ++ '=' :: '\'' :: (singleQuoted (.object fields) ++ "'></div>".toList)) := by
  rw [singleQuoted_of_notMem h, OpenTag.parseFrom_quoted (Or.inr rfl) isName_toc h, behindToc,
    OpenTag.parseFrom_blank (by decide)]

private theorem count_singleQuoted_le (v : Json) : (singleQuoted v).count '"' ≤ v.compact.count '"' :=
  Text.count_replaceAll_le (by decide) v.compact

private theorem count_behindToc_le (fields : Fields) :
    (behindToc fields).count '"' ≤ (Json.object fields).compact.count '"' := by
  have hcount : (behindToc fields).count '"' =
      (singleQuoted (.object fields)).count '"' := by
    unfold behindToc
    simp [List.count_append]
  rw [hcount]
  exact count_singleQuoted_le _

/-- The values with data are two of the four values of the tag. -/
private theorem count_get?_le {as : Attributes} {x y : Text}
    (hnames : as.map Prod.fst = ["id".toList, "style".toList, "data-toc".toList, "data-frontmatter".toList])
    (hx : as.get? "data-toc".toList = some x) (hy : as.get? "data-frontmatter".toList = some y) :
    x.count '"' + y.count '"' ≤ as.count '"' := by
  obtain ⟨⟨k1, v1⟩, as1, rfl, rfl, h1⟩ := List.map_eq_cons_iff.1 hnames
  obtain ⟨⟨k2, v2⟩, as2, rfl, rfl, h2⟩ := List.map_eq_cons_iff.1 h1
  obtain ⟨⟨k3, v3⟩, as3, rfl, rfl, h3⟩ := List.map_eq_cons_iff.1 h2
  obtain ⟨⟨k4, v4⟩, as4, rfl, rfl, -⟩ := List.map_eq_cons_iff.1 h3
  obtain rfl : v3 = x := Option.some.inj hx
  obtain rfl : v4 = y := Option.some.inj hy
  simp only [Attributes.count_cons]
  omega

/-- A tag that has both values nevertheless, though one of them ended too early, has lost quotes. -/
private theorem count_lt_of_parse? {tag : OpenTag} {r x y : Text}
    (h : OpenTag.parseFrom elementFront ("data-toc".toList ++ '=' :: '\'' ::
      (singleQuoted (tocJson toc) ++ '\'' :: behindToc fields)) = some (tag, r))
    (hx : tag.attributes.get? "data-toc".toList = some x) (hxv : unquoted x = (tocJson toc).compact)
    (hy : tag.attributes.get? "data-frontmatter".toList = some y)
    (hyv : unquoted y = (Json.object fields).compact)
    (hsome : '\'' ∈ (tocJson toc).compact ∨ '\'' ∈ (Json.object fields).compact) :
    tag.attributes.count '"' < (tocJson toc).compact.count '"' + (Json.object fields).compact.count '"' := by
  by_cases htoc : '\'' ∈ (tocJson toc).compact
  · have hlt := count_lt_of_apostrophe isName_toc (by decide) htoc h hx hxv
    have hbehind := count_behindToc_le fields
    have hfront : elementFront.count '"' = 0 := by decide
    rw [List.count_cons_of_ne (by decide)] at hlt
    omega
  · rw [parseFrom_toc htoc] at h
    have hlt := count_lt_of_apostrophe isName_frontmatter (by rfl) (hsome.resolve_left htoc) h hy hyv
    have hfront : (elementFront.put "data-toc".toList (tocJson toc).compact).count '"' =
        (tocJson toc).compact.count '"' := by
      simp [elementFront, Attributes.put, Attributes.count]
    have hend : "'></div>".toList.count '"' = 0 := by decide
    omega

/-- Without an apostrophe in the data, the tag is read as it is meant. -/
private theorem parseFrom_staticElement (htoc : '\'' ∉ (tocJson toc).compact)
    (hfields : '\'' ∉ (Json.object fields).compact) :
    OpenTag.parseFrom elementFront ("data-toc".toList ++ '=' :: '\'' ::
        (singleQuoted (tocJson toc) ++ '\'' :: behindToc fields)) =
      some (⟨(elementFront.put "data-toc".toList (tocJson toc).compact).put "data-frontmatter".toList
        (Json.object fields).compact, false⟩, "</div>".toList) := by
  have hend : "'></div>".toList = '\'' :: '>' :: "</div>".toList := rfl
  rw [parseFrom_toc htoc, singleQuoted_of_notMem hfields, hend,
    OpenTag.parseFrom_quoted (Or.inr rfl) isName_frontmatter hfields, OpenTag.parseFrom_end]

private theorem exists_mem_dataStrings_iff (c : Char) : (∃ s ∈ dataStrings toc fields, c ∈ s) ↔
    (∃ s ∈ (tocJson toc).strings, c ∈ s) ∨ ∃ s ∈ (Json.object fields).strings, c ∈ s := by
  simp only [dataStrings, strings, List.mem_append, or_and_right, exists_or]

/-- A script finds the data of a document in the element just where no string of the data has an
apostrophe. -/
theorem elementData?_staticElement_iff (toc : List Markdown.TocEntry) (fields : Fields) :
    elementData? (staticElement toc fields) =
        some ((tocJson toc).compact, (Json.object fields).compact) ↔
      ∀ s ∈ dataStrings toc fields, '\'' ∉ s := by
  obtain ⟨t, ht, htag⟩ := parse?_staticElement toc fields
  constructor
  · intro h
    by_contra hsome
    push Not at hsome
    rw [exists_mem_dataStrings_iff, ← apostrophe_mem_compact_iff, ← apostrophe_mem_compact_iff] at hsome
    unfold elementData? at h
    rw [ht, Option.bind_eq_bind, Option.bind_some, htag] at h
    obtain ⟨⟨tag, r⟩, hparse, h⟩ := Option.bind_eq_some_iff.1 h
    dsimp only at h
    split at h
    · next hnames =>
      obtain ⟨x, hx, h⟩ := Option.bind_eq_some_iff.1 h
      obtain ⟨y, hy, h⟩ := Option.bind_eq_some_iff.1 h
      rw [Option.pure_def, Option.some.injEq, Prod.mk.injEq] at h
      -- the two values have all quotes that there are
      have hall := count_get?_le hnames hx hy
      have hxcount : (unquoted x).count '"' ≤ x.count '"' := Text.count_replaceAll_le (by decide) x
      have hycount : (unquoted y).count '"' ≤ y.count '"' := Text.count_replaceAll_le (by decide) y
      have hlt := count_lt_of_parse? hparse hx h.1 hy h.2 hsome
      rw [h.1] at hxcount
      rw [h.2] at hycount
      omega
    · cases h
  · intro h
    have hnone : ¬ ∃ s ∈ dataStrings toc fields, '\'' ∈ s := by
      rintro ⟨s, hs, hq⟩
      exact h s hs hq
    rw [exists_mem_dataStrings_iff, ← apostrophe_mem_compact_iff, ← apostrophe_mem_compact_iff,
      not_or] at hnone
    unfold elementData?
    rw [ht, Option.bind_eq_bind, Option.bind_some, htag, parseFrom_staticElement hnone.1 hnone.2]
    show some (unquoted (tocJson toc).compact, unquoted (Json.object fields).compact) = _
    rw [unquoted_of_notMem hnone.1, unquoted_of_notMem hnone.2]

/-- The value ends at the apostrophe, and what follows it is taken for an attribute. -/
theorem elementData?_staticElement_apostrophe :
    elementData? (staticElement [] [("t".toList, .string "a'b".toList)]) = none := by
  decide +kernel

end Site

end Pagewright
