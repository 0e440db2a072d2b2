import Pagewright.Proofs.Site.Work
import Pagewright.Proofs.Template.Nesting
import Pagewright.Proofs.Template.OpeningTag
import Pagewright.Site.Loop
import Pagewright.Storage.Memory

/-!
# Loops over contents, pointed at collections

A loop over contents is written again as a loop over the collection that was made of them. Three things live here:

* the document with all such loops written again (`Site.pointLoops`), which does not depend on the site
  (`Site.gives_materializeLoops`);
* the tag of such a loop when it is read again (`Site.opens_pointedTag`): all its attributes are there, but a double
  quote in a value has become a reference;
* documents as trees, with the loops in them pointed at collections (`Grove.pointed`), so that the scanner finds the
  same loops again (`Grove.pointLoops_write`).

So the loops mean what they meant if and only if no value has a double quote
(`Site.materializeLoops_keeps_attributes_iff`).
-/

namespace Pagewright

namespace Site

variable {σ : Type} [Storage σ] {t out name : Text} {e : Element}

/-! ## The document that is written -/

/-- The attributes of a loop when it points at the collection made of its contents. -/
def pointedAttributes (as : Attributes) (name : Text) : Attributes :=
  as.filter (fun (k, _) => k ≠ "content".toList ∧ k ≠ "collection".toList) ++
    [("collection".toList, "content/".toList ++ name)]

/-- No double quote is in the values of the attributes that a loop keeps, nor in the name of its contents. -/
def Quoteless (as : Attributes) (name : Text) : Prop := ∀ a ∈ pointedAttributes as name, '"' ∉ a.2

instance (as : Attributes) (name : Text) : Decidable (Quoteless as name) :=
  inferInstanceAs (Decidable (∀ a ∈ pointedAttributes as name, _))

/-- The opening tag of a loop that was pointed at a collection. -/
def pointedTag (e : Element) (name : Text) : Text :=
  Loop.openingTag (writtenName e) (pointedAttributes e.attributes name)

/-- What an element is written as, with what its body has become. -/
def pointElement (e : Element) (body : Text) : Text :=
  match e.content with
  | none => e.text
  | some (_, closing) =>
    match e.attribute? "content".toList with
    | none => e.opening ++ body ++ closing
    | some name => pointAtCollection e name body

/-- The document with all loops over contents pointed at their collections. -/
def pointLoops (t : Text) : Text :=
  (pieces Loop.tag t).attach.flatMap fun ⟨p, _hp⟩ =>
    match p with
    | .text t => t
    | .element e => pointElement e (pointLoops e.body)
termination_by t.length
decreasing_by exact length_body_lt_of_mem_pieces _hp

/-- What a piece of a document is written as. -/
def pointPiece : Piece → Text
  | .text t => t
  | .element e => pointElement e (pointLoops e.body)

theorem pointLoops_eq (t : Text) : pointLoops t = (pieces Loop.tag t).flatMap pointPiece := by
  rw [pointLoops, List.flatMap_def, List.flatMap_def]
  congr 1
  refine (List.map_congr_left fun p _ => ?_).trans List.attach_map_val
  obtain ⟨p, hp⟩ := p
  cases p <;> rfl

/-- Where the collections can be made, the document does not depend on them. -/
theorem gives_materializeLoops (t : Text) : Work.Gives (materializeLoops (σ := σ) t) (pointLoops t) := by
  have hpieces : (pieces Loop.tag t).attach.map (fun p => pointPiece p.1) = (pieces Loop.tag t).map pointPiece :=
    List.attach_map_val
  rw [materializeLoops, pointLoops_eq, List.flatMap_def, ← hpieces]
  refine Work.Gives.bind (Work.Gives.mapM fun p _ => ?_) (Work.Gives.pure _)
  obtain ⟨p, hp⟩ := p
  cases p with
  | text t => exact Work.Gives.pure t
  | element e =>
    dsimp only [pointPiece, pointElement]
    cases e.content with
    | none => exact Work.Gives.pure e.text
    | some parts =>
      refine Work.Gives.bind (gives_materializeLoops e.body) ?_
      cases e.attribute? "content".toList with
      | none => exact Work.Gives.pure _
      | some name => exact Work.Gives.of_bind fun _ => Work.Gives.pure _
termination_by t.length
decreasing_by exact length_body_lt_of_mem_pieces hp

/-! ## The tag of a loop -/

/-- A loop over contents in a document, at any depth: an element with a body and the name of its contents. -/
inductive ContentLoop : Text → Element → Text → Prop
  | outermost {t : Text} {e : Element} {name : Text} (hmem : .element e ∈ pieces Loop.tag t) (hbody : e.content ≠ none)
    (hname : e.attribute? "content".toList = some name) : ContentLoop t e name
  | inside {t : Text} {d e : Element} {name : Text} (hmem : .element d ∈ pieces Loop.tag t)
    (h : ContentLoop d.body e name) : ContentLoop t e name

theorem isName_tag : Element.IsName Loop.tag := by decide

theorem named_pointedAttributes {as : Attributes} (h : as.Named) (name : Text) : (pointedAttributes as name).Named := by
  refine (h.sublist List.filter_sublist).append (fun hmem => ?_) ⟨by decide, by decide +kernel⟩ _
  obtain ⟨a, ha, hkey⟩ := List.mem_map.1 hmem
  exact (of_decide_eq_true (List.mem_filter.1 ha).2).2 hkey

/-- All attributes but those that name the data are the same. -/
theorem get?_pointedAttributes {key : Text} (hcontent : key ≠ "content".toList) (hcollection : key ≠ "collection".toList)
    (as : Attributes) (name : Text) : (pointedAttributes as name).get? key = as.get? key := by
  have hlast : Attributes.get? key [("collection".toList, "content/".toList ++ name)] = none := if_neg hcollection.symm
  rw [pointedAttributes, Attributes.get?_append, hlast, Option.or_none]
  exact Attributes.get?_filter (fun _ => decide_eq_true ⟨hcontent, hcollection⟩) as

/-- An element of a document has attributes as they are read, and its opening tag begins with the name. -/
theorem of_mem_pieces (h : .element e ∈ pieces Loop.tag t) :
    e.attributes.Named ∧ Text.sameIgnoringAsciiCase (writtenName e) Loop.tag := by
  obtain ⟨u, before, rest, hfind⟩ := exists_find?_of_mem_pieces h
  refine ⟨Element.named_of_find? hfind, ?_⟩
  obtain ⟨written, behind, hopening, hsame⟩ := Element.exists_opening_of_find? hfind
  have hname : writtenName e = written := by
    rw [writtenName, hopening, List.drop_one, List.tail_cons, ← Text.length_eq_of_same hsame, List.take_left]
  rw [hname]
  exact hsame

/-- What is outermost in a document decides about its loops. -/
theorem ContentLoop.of_mem {t' : Text} (h : ContentLoop t e name)
    (hmem : ∀ d, .element d ∈ pieces Loop.tag t → .element d ∈ pieces Loop.tag t') : ContentLoop t' e name := by
  cases h with
  | outermost he hbody hname => exact .outermost (hmem _ he) hbody hname
  | inside hd h => exact .inside (hmem _ hd) h

theorem ContentLoop.exists_mem (h : ContentLoop t e name) : ∃ u, .element e ∈ pieces Loop.tag u := by
  induction h with
  | outermost hmem => exact ⟨_, hmem⟩
  | inside _ _ ih => exact ih

/-- An element with a loop in its body has a body. -/
theorem ContentLoop.content_ne_none {d : Element} (h : ContentLoop d.body e name) : d.content ≠ none := by
  intro hnone
  have hbody : pieces Loop.tag d.body = [.text []] := by
    rw [Element.body, Element.body?, hnone]
    exact pieces_nil Loop.tag
  cases h with
  | outermost hmem => simp [hbody] at hmem
  | inside hmem => simp [hbody] at hmem

theorem pointAtCollection_eq (e : Element) (name body : Text) :
    pointAtCollection e name body = pointedTag e name ++ body ++ "</".toList ++ writtenName e ++ ['>'] := rfl

/-- The tag of a loop, with what its body has become, stands in the document. -/
theorem ContentLoop.infix_pointLoops (h : ContentLoop t e name) :
    pointedTag e name ++ pointLoops e.body <:+: pointLoops t := by
  have hpiece : ∀ {t : Text} {p : Piece}, p ∈ pieces Loop.tag t → pointPiece p <:+: pointLoops t := by
    intro t p hp
    rw [pointLoops_eq, List.flatMap_def]
    exact List.infix_of_mem_flatten (List.mem_map_of_mem hp)
  induction h with
  | @outermost t e name hmem hbody hname =>
    refine List.IsInfix.trans ?_ (hpiece hmem)
    obtain ⟨parts, hparts⟩ := Option.ne_none_iff_exists'.1 hbody
    simp only [pointPiece, pointElement, hparts, hname, pointAtCollection_eq, List.append_assoc]
    exact ⟨[], "</".toList ++ writtenName e ++ ['>'], by simp⟩
  | @inside t d e name hmem h ih =>
    -- the body of the element around it is kept, whether or not that is a loop over contents
    refine ih.trans (List.IsInfix.trans ?_ (hpiece hmem))
    obtain ⟨parts, hparts⟩ := Option.ne_none_iff_exists'.1 h.content_ne_none
    simp only [pointPiece, pointElement, hparts]
    cases d.attribute? "content".toList with
    | none => exact ⟨_, _, rfl⟩
    | some name => exact ⟨pointedTag d name, "</".toList ++ writtenName d ++ ['>'], by simp [pointAtCollection_eq]⟩

/-- The tag of a loop is an opening tag with the same attributes, but for the double quotes in their values. -/
theorem opens_pointedTag (h : .element e ∈ pieces Loop.tag t) (name : Text) :
    ∃ tag, pointedTag e name = '<' :: tag ∧
      Element.Opens Loop.tag tag (pointedAttributes e.attributes name).escaped ∧
      (Element.Opens Loop.tag tag (pointedAttributes e.attributes name) ↔ Quoteless e.attributes name) := by
  obtain ⟨hnamed, hsame⟩ := of_mem_pieces h
  obtain ⟨tag, htag, hopens⟩ := Loop.opens_openingTag isName_tag hsame (named_pointedAttributes hnamed name)
  refine ⟨tag, htag, hopens, ?_⟩
  rw [Quoteless, ← Attributes.escaped_eq_iff]
  constructor
  · intro hsame
    exact hopens.unique hsame
  · intro hplain
    rwa [hplain] at hopens

end Site

/-! ## Documents as trees -/

namespace Grove

open Element Site

variable {f : Grove} {front : Stray} {e : Element} {name u : Text}

/-- The document with all loops over contents pointed at their collections. -/
def pointed : Grove → Grove
  | text t => text t
  | single t tag rest => single t tag rest.pointed
  | element t tag children closing rest =>
    match tag.read.get? "content".toList with
    | none => element t tag children.pointed closing rest.pointed
    | some name =>
      element t (.again tag.name (pointedAttributes tag.read name)) children.pointed ⟨tag.name, []⟩ rest.pointed

/-- The second document has the same elements with the same attributes, and loops over the collections in place of
loops over contents. -/
def PointedAs : Grove → Grove → Prop
  | text t, text t' => t = t'
  | single t tag rest, single t' tag' rest' => t = t' ∧ tag'.read = tag.read ∧ rest.PointedAs rest'
  | element t tag children _ rest, element t' tag' children' _ rest' =>
    t = t' ∧ tag'.read = ((tag.read.get? "content".toList).elim tag.read (pointedAttributes tag.read)) ∧
      children.PointedAs children' ∧ rest.PointedAs rest'
  | _, _ => False

/-! ### One element -/

theorem named_read {tag : WrittenTag} (h : tag.Proper Loop.tag) : tag.read.Named := by
  obtain ⟨-, tail, -, hparse⟩ := tag.opens isName_tag h []
  exact OpenTag.named_parseFrom hparse Attributes.named_nil

theorem writtenName_of_proper {tag : WrittenTag} {content : Option (Text × Text)} (h : tag.Proper Loop.tag) :
    writtenName ⟨'<' :: tag.opening, tag.read, content⟩ = tag.name := by
  rw [writtenName, List.drop_one, List.tail_cons, WrittenTag.opening, WrittenTag.text, ← Text.length_eq_of_same h.1,
    List.take_left]

theorem proper_again {tag : WrittenTag} (h : tag.Proper Loop.tag) (name : Text) :
    (WrittenTag.again tag.name (pointedAttributes tag.read name)).Proper Loop.tag :=
  WrittenTag.proper_again h.1 (named_pointedAttributes (named_read h) name)

theorem read_again {tag : WrittenTag} (h : tag.Proper Loop.tag) (name : Text) :
    (WrittenTag.again tag.name (pointedAttributes tag.read name)).read = (pointedAttributes tag.read name).escaped :=
  WrittenTag.read_again (named_pointedAttributes (named_read h) name)

/-- An element is written as the element of the tree is. -/
theorem pointPiece_element {t : Text} {tag : WrittenTag} {children rest : Grove} {closing : WrittenEnd}
    (htag : tag.Proper Loop.tag) (hchildren : pointLoops children.write = children.pointed.write)
    (hrest : pointLoops rest.write = rest.pointed.write) :
    t ++ (pointPiece (.element ⟨'<' :: tag.opening, tag.read, some (children.write, '<' :: closing.text)⟩) ++
      pointLoops rest.write) = (element t tag children closing rest).pointed.write := by
  have hbody : Element.body ⟨'<' :: tag.opening, tag.read, some (children.write, '<' :: closing.text)⟩ =
      children.write := rfl
  have hcontent : Element.attribute? ⟨'<' :: tag.opening, tag.read, some (children.write, '<' :: closing.text)⟩
      "content".toList = tag.read.get? "content".toList := rfl
  simp only [pointPiece, pointElement, pointed, hbody, hcontent, hchildren, hrest]
  cases tag.read.get? "content".toList with
  | none => simp [write, written]
  | some name =>
    -- the written closing tag has the name of the opening tag
    simp only [pointAtCollection_eq, pointedTag, writtenName_of_proper htag, Loop.openingTag_eq]
    simp [write, written, WrittenEnd.text]

/-! ### All elements -/

theorem pointLoops_write (h : f.Proper Loop.tag) : pointLoops f.write = f.pointed.write := by
  induction f with
  | text t =>
    rw [pointLoops_eq, pieces_write isName_tag h]
    exact List.append_nil t
  | single t tag rest ih =>
    rw [pointLoops_eq, pieces_write isName_tag h, roots, List.flatMap_cons, List.flatMap_cons,
      ← pieces_write isName_tag h.2.2, ← pointLoops_eq, ih h.2.2]
    rfl
  | element t tag children closing rest ihc ihr =>
    rw [pointLoops_eq, pieces_write isName_tag h, roots, List.flatMap_cons, List.flatMap_cons,
      ← pieces_write isName_tag h.2.2.2.2, ← pointLoops_eq]
    obtain ⟨-, htag, hchildren, -, hrest⟩ := h
    exact pointPiece_element htag (ihc hchildren) (ihr hrest)

theorem proper_pointed (h : f.Proper Loop.tag) : f.pointed.Proper Loop.tag := by
  induction f with
  | text t => exact h
  | single t tag rest ih => exact ⟨h.1, h.2.1, ih h.2.2⟩
  | element t tag children closing rest ihc ihr =>
    obtain ⟨ht, htag, hchildren, hclosing, hrest⟩ := h
    rw [pointed]
    cases tag.read.get? "content".toList with
    | none => exact ⟨ht, htag, ihc hchildren, hclosing, ihr hrest⟩
    | some name => exact ⟨ht, proper_again htag name, ihc hchildren, ⟨htag.1, by simp [IsGap]⟩, ihr hrest⟩

/-- Openings that nothing closes stay in front of the document. -/
theorem pointLoops_write_append (h : f.Proper Loop.tag) (hfront : front.Proper Loop.tag) :
    pointLoops (front.write ++ f.write) = front.write ++ f.pointed.write := by
  have hroots : (f.behind front.write).roots.flatMap pointPiece = front.write ++ f.roots.flatMap pointPiece := by
    cases f <;> simp [behind, roots, pointPiece]
  rw [pointLoops_eq, ((scan_write isName_tag h).2 front hfront).2, hroots, ← pieces_write isName_tag h, ← pointLoops_eq,
    pointLoops_write h]

/-! ### The same loops -/

/-- Loops are outermost elements of the tree, or in their bodies. -/
theorem contentLoop_write_iff (h : f.Proper Loop.tag) :
    ContentLoop f.write e name ↔ ∃ d, .element d ∈ f.roots ∧
      ((d = e ∧ d.content ≠ none ∧ d.attribute? "content".toList = some name) ∨ ContentLoop d.body e name) := by
  rw [← pieces_write isName_tag h]
  constructor
  · rintro (⟨hmem, hbody, hname⟩ | ⟨hmem, h⟩)
    · exact ⟨e, hmem, Or.inl ⟨rfl, hbody, hname⟩⟩
    · exact ⟨_, hmem, Or.inr h⟩
  · rintro ⟨d, hmem, ⟨rfl, hbody, hname⟩ | h⟩
    · exact .outermost hmem hbody hname
    · exact .inside hmem h

theorem contentLoop_write_append_iff (h : f.Proper Loop.tag) (hfront : front.Proper Loop.tag) :
    ContentLoop (front.write ++ f.write) e name ↔ ContentLoop f.write e name := by
  have hroots : ∀ d, Piece.element d ∈ pieces Loop.tag (front.write ++ f.write) ↔ .element d ∈ pieces Loop.tag f.write := by
    intro d
    rw [((scan_write isName_tag h).2 front hfront).2, pieces_write isName_tag h]
    cases f <;> simp [behind, roots]
  exact ⟨fun hloop => hloop.of_mem fun d => (hroots d).1, fun hloop => hloop.of_mem fun d => (hroots d).2⟩

theorem not_contentLoop_text {t : Text} (h : (text t).Proper Loop.tag) : ¬ ContentLoop (text t).write e name := by
  rw [contentLoop_write_iff h]
  simp [roots]

theorem contentLoop_single_iff {t : Text} {tag : WrittenTag} {rest : Grove}
    (h : (single t tag rest).Proper Loop.tag) :
    ContentLoop (single t tag rest).write e name ↔ ContentLoop rest.write e name := by
  rw [contentLoop_write_iff h, contentLoop_write_iff h.2.2]
  constructor
  · rintro ⟨d, hmem, hd⟩
    rw [roots, List.mem_cons, List.mem_cons] at hmem
    rcases hmem with hmem | hmem | hmem
    · cases hmem
    · obtain rfl := Piece.element.inj hmem
      rcases hd with ⟨-, hbody, -⟩ | hd
      · exact absurd rfl hbody
      · exact absurd rfl hd.content_ne_none
    · exact ⟨d, hmem, hd⟩
  · rintro ⟨d, hmem, hd⟩
    exact ⟨d, List.mem_cons_of_mem _ (List.mem_cons_of_mem _ hmem), hd⟩

theorem contentLoop_element_iff {t : Text} {tag : WrittenTag} {children rest : Grove} {closing : WrittenEnd}
    (h : (element t tag children closing rest).Proper Loop.tag) :
    ContentLoop (element t tag children closing rest).write e name ↔
      (⟨'<' :: tag.opening, tag.read, some (children.write, '<' :: closing.text)⟩ = e ∧
          tag.read.get? "content".toList = some name) ∨
        ContentLoop children.write e name ∨ ContentLoop rest.write e name := by
  rw [contentLoop_write_iff h, contentLoop_write_iff h.2.2.2.2]
  constructor
  · rintro ⟨d, hmem, hd⟩
    rw [roots, List.mem_cons, List.mem_cons] at hmem
    rcases hmem with hmem | hmem | hmem
    · cases hmem
    · obtain rfl := Piece.element.inj hmem
      exact hd.imp (fun hd => ⟨hd.1, hd.2.2⟩) Or.inl
    · exact Or.inr (Or.inr ⟨d, hmem, hd⟩)
  · rintro (⟨rfl, hname⟩ | hchildren | ⟨d, hmem, hd⟩)
    · exact ⟨_, List.mem_cons_of_mem _ List.mem_cons_self, Or.inl ⟨rfl, Option.some_ne_none _, hname⟩⟩
    · exact ⟨_, List.mem_cons_of_mem _ List.mem_cons_self, Or.inr hchildren⟩
    · exact ⟨d, List.mem_cons_of_mem _ (List.mem_cons_of_mem _ hmem), hd⟩

/-- The loops are the ones that are meant if and only if no loop over contents has a double quote in a value. -/
theorem pointedAs_pointed_iff (h : f.Proper Loop.tag) :
    f.PointedAs f.pointed ↔ ∀ e name, ContentLoop f.write e name → Quoteless e.attributes name := by
  induction f with
  | text t => exact iff_of_true rfl fun e name hloop => absurd hloop (not_contentLoop_text h)
  | single t tag rest ih =>
    simp only [contentLoop_single_iff h, ← ih h.2.2]
    exact (and_iff_right rfl).trans (and_iff_right rfl)
  | element t tag children closing rest ihc ihr =>
    have htag : (element t tag children closing rest).PointedAs (element t tag children closing rest).pointed ↔
        (∀ name, tag.read.get? "content".toList = some name → Quoteless tag.read name) ∧
          children.PointedAs children.pointed ∧ rest.PointedAs rest.pointed := by
      rw [pointed]
      cases hname : tag.read.get? "content".toList with
      | none => simp only [PointedAs, hname, Option.elim_none, true_and, reduceCtorEq, IsEmpty.forall_iff, implies_true]
      | some name =>
        simp only [PointedAs, hname, Option.elim_some, read_again h.2.1, Attributes.escaped_eq_iff, true_and,
          Option.some.injEq, forall_eq']
        rfl
    rw [htag, ihc h.2.2.1, ihr h.2.2.2.2]
    simp only [contentLoop_element_iff h, or_imp, and_imp, forall_and]
    refine and_congr_left' ?_
    constructor
    · rintro hplain e name rfl hname
      exact hplain name hname
    · intro hplain name hname
      exact hplain _ name rfl hname

end Grove

/-! ## The document after the collections are made -/

namespace Site

variable {σ : Type} [Storage σ] {t out : Text} {site site' : Site σ}

/-- Pointing loops at collections keeps their attributes if and only if no value has a double quote. Each loop over
contents, at any depth, is written with an opening tag that is read again, with the attributes in their order and the
collection behind them; a double quote in a value is read as the reference that was written for it. In a document whose
tags are those of a tree, with any values in quotes, the scanner then finds the same loops. -/
theorem materializeLoops_keeps_attributes_iff (h : materializeLoops t site = some (.ok out, site')) :
    (∀ e name, ContentLoop t e name →
      pointedTag e name ++ pointLoops e.body <:+: out ∧
      (∀ key, key ≠ "content".toList → key ≠ "collection".toList →
        (pointedAttributes e.attributes name).escaped.get? key = (e.attribute? key).map Text.escapeQuotes) ∧
      ∃ tag, pointedTag e name = '<' :: tag ∧
        Element.Opens Loop.tag tag (pointedAttributes e.attributes name).escaped ∧
        (Element.Opens Loop.tag tag (pointedAttributes e.attributes name) ↔ Quoteless e.attributes name)) ∧
    ∀ (front : Grove.Stray) (f : Grove), front.Proper Loop.tag → f.Proper Loop.tag → t = front.write ++ f.write →
      (f.pointed.Proper Loop.tag ∧ out = front.write ++ f.pointed.write ∧
        pieces Loop.tag out = (f.pointed.behind front.write).roots) ∧
      (f.PointedAs f.pointed ↔ ∀ e name, ContentLoop t e name → Quoteless e.attributes name) := by
  obtain rfl : out = pointLoops t := gives_materializeLoops t site site' out h
  refine ⟨fun e name hloop => ⟨hloop.infix_pointLoops, ?_, ?_⟩, ?_⟩
  · intro key hcontent hcollection
    rw [Attributes.get?_escaped, get?_pointedAttributes hcontent hcollection]
    rfl
  · obtain ⟨u, hmem⟩ := hloop.exists_mem
    exact opens_pointedTag hmem name
  · rintro front f hfront hf rfl
    have hpointed := Grove.proper_pointed hf
    have hout := Grove.pointLoops_write_append hf hfront
    refine ⟨⟨hpointed, hout, ?_⟩, ?_⟩
    · rw [hout]
      exact ((Grove.scan_write isName_tag hpointed).2 front hfront).2
    · simp only [Grove.contentLoop_write_append_iff hf hfront]
      exact Grove.pointedAs_pointed_iff hf

/-! ### A loop with values in quotes -/

/-- A site with one content. -/
def noteSite : Site MemoryStore where
  store := .ofList [(⟨"content/notes/a.md".toList⟩, "A".toList)]
  settings := SiteSettings.default
  collections := []

/-- A loop over the contents with quotes of both kinds; one of them holds a quote of the other kind and the end of a
tag. -/
def noteLoop : Grove :=
  .element "a".toList
    ⟨"ForEach".toList,
      [⟨[' '], "as".toList, "n".toList, .quoted [] [] '\''⟩, ⟨[' '], "content".toList, "notes".toList, .quoted [] [] '\''⟩,
        ⟨[' '], "orderBy".toList, "it's > x".toList, .quoted [] [] '"'⟩], []⟩
    (.text "-".toList) ⟨"foreach".toList, []⟩ (.text "z".toList)

/-- The loop keeps its attributes, and it is found again. -/
theorem materializeLoops_noteLoop :
    let t := "a<ForEach as='n' content='notes' orderBy=\"it's > x\">-</foreach>z".toList
    let out := "a<ForEach as=\"n\" orderBy=\"it's > x\" collection=\"content/notes\">-</ForEach>z".toList
    (∃ site', materializeLoops t noteSite = some (.ok out, site')) ∧
      (Grove.Stray.Proper Loop.tag [] ∧ noteLoop.Proper Loop.tag ∧ t = Grove.Stray.write [] ++ noteLoop.write) ∧
      noteLoop.PointedAs noteLoop.pointed ∧
      pieces Loop.tag out =
        [.text "a".toList,
          .element ⟨"<ForEach as=\"n\" orderBy=\"it's > x\" collection=\"content/notes\">".toList,
            [("as".toList, "n".toList), ("orderBy".toList, "it's > x".toList),
              ("collection".toList, "content/notes".toList)], some ("-".toList, "</ForEach>".toList)⟩,
          .text "z".toList] := by
  intro t out
  obtain ⟨site', hrun⟩ : ∃ site', materializeLoops t noteSite = some (.ok out, site') :=
    Work.exists_of_toOption (by decide +kernel)
  have hfront : Grove.Stray.Proper Loop.tag [] := by decide
  have hloop : noteLoop.Proper Loop.tag := by decide +kernel
  have ht : t = Grove.Stray.write [] ++ noteLoop.write := by decide +kernel
  have hquoteless : ∀ e name, ContentLoop t e name → Quoteless e.attributes name := by
    intro e name hcontent
    rw [ht, Grove.contentLoop_write_append_iff hloop hfront, noteLoop, Grove.contentLoop_element_iff hloop] at hcontent
    rcases hcontent with ⟨rfl, hname⟩ | hcontent | hcontent
    · obtain rfl : "notes".toList = name := Option.some.inj hname
      decide +kernel
    · exact absurd hcontent (Grove.not_contentLoop_text hloop.2.2.1)
    · exact absurd hcontent (Grove.not_contentLoop_text hloop.2.2.2.2)
  have hkeeps := (materializeLoops_keeps_attributes_iff hrun).2 [] noteLoop hfront hloop ht
  refine ⟨⟨site', hrun⟩, ⟨hfront, hloop, ht⟩, hkeeps.2.2 hquoteless, ?_⟩
  rw [hkeeps.1.2.2]
  decide +kernel

/-- A double quote in a value is not read again: the field that the items are put in order by has another name. -/
theorem materializeLoops_doubleQuote :
    let t := "<ForEach content='notes' orderBy='a\"b'>-</ForEach>".toList
    let out := "<ForEach orderBy=\"a&quot;b\" collection=\"content/notes\">-</ForEach>".toList
    (∃ site', materializeLoops t noteSite = some (.ok out, site')) ∧
      (Element.find? Loop.tag t).map (fun found => found.2.1.attribute? "orderBy".toList) = some (some "a\"b".toList) ∧
      (Element.find? Loop.tag out).map (fun found => found.2.1.attribute? "orderBy".toList) =
        some (some "a&quot;b".toList) := by
  intro t out
  exact ⟨Work.exists_of_toOption (by decide +kernel), by decide +kernel, by decide +kernel⟩

end Site

end Pagewright
