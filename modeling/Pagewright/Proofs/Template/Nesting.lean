import Pagewright.Proofs.Template.WrittenTag

/-!
# Elements inside of elements

The scanner knows no trees. It looks for the closing tag of an element by counting the tags of its name, and goes on
behind the element. Three things live here:

* the elements of a document and of their bodies as a tree (`Grove`), with its text and its outermost elements;
* openings that nothing closes (`Grove.Stray`), which may stand in front of a document;
* the scanner on the text of a tree: it finds the outermost elements one after the other, each with all of its
  body, and openings in front of them make no difference (`Grove.scan_write`).
-/

namespace Pagewright

/-- The elements of a document and the texts around them: a text, or a text, an element and the rest. Between two tags
there is one text, which may be empty. -/
inductive Grove
  | text (t : Text)
  | single (t : Text) (tag : WrittenTag) (rest : Grove)
  | element (t : Text) (tag : WrittenTag) (children : Grove) (closing : WrittenEnd) (rest : Grove)

namespace Grove

open Element

variable {name r : Text} {f : Grove}

/-! ## The text of a grove -/

/-- A grove as it is written. -/
def write : Grove → Text
  | text t => t
  | single t tag rest => t ++ ('<' :: tag.selfClosing ++ rest.write)
  | element t tag children closing rest =>
    t ++ (written tag.opening children.write closing.text ++ rest.write)

/-- All tags of the name are those of the grove: the texts have none, and what the tags enclose in quotes does not
count. -/
def Proper (name : Text) : Grove → Prop
  | text t => IsChunk name t
  | single t tag rest => IsChunk name t ∧ tag.Proper name ∧ rest.Proper name
  | element t tag children closing rest =>
    IsChunk name t ∧ tag.Proper name ∧ children.Proper name ∧ closing.Proper name ∧ rest.Proper name

instance decidableProper (name : Text) : (f : Grove) → Decidable (f.Proper name)
  | text t => inferInstanceAs (Decidable (IsChunk name t))
  | single _ _ rest =>
    have := decidableProper name rest
    inferInstanceAs (Decidable (_ ∧ _ ∧ _))
  | element _ _ children _ rest =>
    have := decidableProper name children
    have := decidableProper name rest
    inferInstanceAs (Decidable (_ ∧ _ ∧ _ ∧ _ ∧ _))

/-- The first of the outermost elements: the text before it, the element with its attributes and, unless it closes
itself, all that its children are written as, and the text behind its own end. -/
def first? : Grove → Option (Text × Element × Text)
  | text _ => none
  | single t tag rest => some (t, ⟨'<' :: tag.selfClosing, tag.read, none⟩, rest.write)
  | element t tag children closing rest =>
    some (t, ⟨'<' :: tag.opening, tag.read, some (children.write, '<' :: closing.text)⟩, rest.write)

/-- The outermost elements with the texts around them. -/
def roots : Grove → List Piece
  | text t => [.text t]
  | single t tag rest => .text t :: .element ⟨'<' :: tag.selfClosing, tag.read, none⟩ :: rest.roots
  | element t tag children closing rest =>
    .text t :: .element ⟨'<' :: tag.opening, tag.read, some (children.write, '<' :: closing.text)⟩ :: rest.roots

/-- The grove with a text in front of it. -/
def behind (u : Text) : Grove → Grove
  | text t => text (u ++ t)
  | single t tag rest => single (u ++ t) tag rest
  | element t tag children closing rest => element (u ++ t) tag children closing rest

/-! ## The end of an element -/

/-- No tag begins in a chunk when a tag or the end of the document is behind it. -/
theorem skipsBefore {t : Text} (hname : IsName name) (h : IsChunk name t) (hr : AtTag r) : SkipsBefore name t r :=
  h.skipsBefore (hname.notMem (by decide)) hr

/-- The tags of an element, with what is behind each of them. -/
private theorem write_element_append (t : Text) (tag : WrittenTag) (children : Grove) (closing : WrittenEnd)
    (rest : Grove) (r : Text) : (element t tag children closing rest).write ++ r =
      t ++ ('<' :: tag.opening ++ (children.write ++ ('<' :: closing.text ++ (rest.write ++ r)))) := by
  simp [write, written]

private theorem write_single_append (t : Text) (tag : WrittenTag) (rest : Grove) (r : Text) :
    (single t tag rest).write ++ r = t ++ ('<' :: tag.selfClosing ++ (rest.write ++ r)) := by
  simp [write]

/-- The search for a closing tag passes over a grove, at any depth. -/
theorem closing?_write_append (hname : IsName name) (h : f.Proper name) (hr : AtTag r) (depth : Nat) :
    closing? name depth (f.write ++ r) = (closing? name depth r).map (prepend f.write) := by
  induction f generalizing depth r with
  | text t => exact (skipsBefore hname h hr).closing?_append depth
  | single t tag rest ih =>
    obtain ⟨ht, htag, hrest⟩ := h
    have hself := closing?_selfClosing (tag.parse?_selfClosing hname htag (rest.write ++ r)) depth
    rw [write_single_append, (skipsBefore hname ht (atTag_append _ _)).closing?_append, hself, ih hrest hr]
    simp only [Option.map_map, prepend_comp]
    simp [write]
  | element t tag children closing rest ihc ihr =>
    obtain ⟨ht, htag, hchildren, hclosing, hrest⟩ := h
    -- the depth goes up with the opening tag and comes back with the closing one
    rw [write_element_append, (skipsBefore hname ht (atTag_append _ _)).closing?_append, (tag.opens hname htag).closing?,
      ihc hchildren (atTag_append _ _), (closing.closes hclosing).closing?_succ, ihr hrest hr]
    simp only [Option.map_map, prepend_comp]
    simp [write, written]

/-- In a grove nothing is closed that was opened in front of it. -/
theorem closing?_write_eq_none (hname : IsName name) (h : f.Proper name) (depth : Nat) :
    closing? name depth f.write = none := by
  have hpass := closing?_write_append hname h atTag_nil depth
  rwa [List.append_nil, closing?_nil] at hpass

/-! ## Openings that nothing closes -/

/-- Opening tags, each with a text in front of it. -/
abbrev Stray := List (Text × WrittenTag)

namespace Stray

variable {front : Stray}

/-- The openings as they are written. -/
def write : Stray → Text
  | [] => []
  | (t, tag) :: front => t ++ ('<' :: tag.opening ++ write front)

/-- The texts have no tags of the name. -/
def Proper (name : Text) (front : Stray) : Prop := ∀ a ∈ front, IsChunk name a.1 ∧ a.2.Proper name

instance (name : Text) (front : Stray) : Decidable (Proper name front) :=
  inferInstanceAs (Decidable (∀ a ∈ front, IsChunk name a.1 ∧ a.2.Proper name))

theorem Proper.tail {a : Text × WrittenTag} (h : Proper name (a :: front)) : Proper name front := fun b hb =>
  h b (List.mem_cons_of_mem a hb)

private theorem write_cons_append (t : Text) (tag : WrittenTag) (front : Stray) (r : Text) :
    write ((t, tag) :: front) ++ r = t ++ ('<' :: tag.opening ++ (write front ++ r)) := by
  simp [write]

/-- Openings in front of a text in which nothing more is closed than opened: what is open in front of them stays
open. -/
theorem closing?_write_append (hname : IsName name) (h : Proper name front)
    (hr : ∀ depth, closing? name depth r = none) (depth : Nat) : closing? name depth (write front ++ r) = none := by
  induction front generalizing depth with
  | nil => exact hr depth
  | cons a front ih =>
    obtain ⟨t, tag⟩ := a
    obtain ⟨ht, htag⟩ := h (t, tag) List.mem_cons_self
    rw [write_cons_append, (skipsBefore hname ht (atTag_append _ _)).closing?_append, (tag.opens hname htag).closing?,
      ih h.tail]
    rfl

/-- The search for an element passes over them. -/
theorem find?_write_append (hname : IsName name) (h : Proper name front)
    (hr : ∀ depth, closing? name depth r = none) :
    find? name (write front ++ r) = (find? name r).map (prepend (write front)) := by
  induction front with
  | nil => exact (map_prepend_nil _).symm
  | cons a front ih =>
    obtain ⟨t, tag⟩ := a
    obtain ⟨ht, htag⟩ := h (t, tag) List.mem_cons_self
    have hopen : closing? name 0 (write front ++ r) = none := closing?_write_append hname h.tail hr 0
    rw [write_cons_append, (skipsBefore hname ht (atTag_append _ _)).find?_append,
      find?_of_closing?_eq_none (tag.opens hname htag) hopen, ih h.tail]
    simp only [Option.map_map, prepend_comp]
    simp [write]

end Stray

/-! ## The elements of a document -/

/-- The first element that is found is the first one of the grove. -/
theorem find?_write (hname : IsName name) (h : f.Proper name) : find? name f.write = f.first? := by
  cases f with
  | text t =>
    have hskip := (skipsBefore hname h atTag_nil).find?_append
    rw [List.append_nil, find?_nil] at hskip
    exact hskip
  | single t tag rest =>
    obtain ⟨ht, htag, -⟩ := h
    have htext := write_single_append t tag rest []
    rw [List.append_nil, List.append_nil] at htext
    rw [htext, (skipsBefore hname ht (atTag_append _ _)).find?_append,
      find?_selfClosing (tag.parse?_selfClosing hname htag rest.write).2]
    simp [prepend, first?]
  | element t tag children closing rest =>
    obtain ⟨ht, htag, hchildren, hclosing, -⟩ := h
    have htext := write_element_append t tag children closing rest []
    have hclose : closing? name 0 (children.write ++ ('<' :: closing.text ++ rest.write)) =
        some (children.write, '<' :: closing.text, rest.write) := by
      rw [closing?_write_append hname hchildren (atTag_append _ _), (closing.closes hclosing).closing?_zero]
      simp [prepend]
    rw [List.append_nil, List.append_nil] at htext
    rw [htext, (skipsBefore hname ht (atTag_append _ _)).find?_append, find?_of_opens (tag.opens hname htag) hclose]
    simp [prepend, first?]

theorem pieces_write (hname : IsName name) (h : f.Proper name) : pieces name f.write = f.roots := by
  induction f with
  | text t => exact pieces_of_find?_eq_none (find?_write hname h)
  | single t tag rest ih =>
    rw [pieces_of_find? (find?_write hname h), ih h.2.2]
    rfl
  | element t tag children closing rest _ ih =>
    rw [pieces_of_find? (find?_write hname h), ih h.2.2.2.2]
    rfl

/-- Where the first element is the one of the grove, the others are too. -/
private theorem pieces_append_of_find? (hname : IsName name) (h : f.Proper name) {u : Text}
    (hfind : find? name (u ++ f.write) = f.first?.map (prepend u)) : pieces name (u ++ f.write) = (f.behind u).roots := by
  cases f with
  | text t => exact pieces_of_find?_eq_none hfind
  | single t tag rest =>
    rw [pieces_of_find? hfind, pieces_write hname h.2.2]
    rfl
  | element t tag children closing rest =>
    rw [pieces_of_find? hfind, pieces_write hname h.2.2.2.2]
    rfl

/-- The scanner finds the outermost elements of a grove in their order, each with its attributes and all of its body,
and openings in front that nothing closes do not change which ones it finds. -/
theorem scan_write (hname : IsName name) (h : f.Proper name) :
    (find? name f.write = f.first? ∧ pieces name f.write = f.roots) ∧
      ∀ front : Stray, front.Proper name →
        find? name (front.write ++ f.write) = f.first?.map (prepend front.write) ∧
          pieces name (front.write ++ f.write) = (f.behind front.write).roots := by
  refine ⟨⟨find?_write hname h, pieces_write hname h⟩, fun front hfront => ?_⟩
  have hfind : find? name (front.write ++ f.write) = f.first?.map (prepend front.write) := by
    rw [front.find?_write_append hname hfront (closing?_write_eq_none hname h), find?_write hname h]
  exact ⟨hfind, pieces_append_of_find? hname h hfind⟩

/-! ## A document with tags in quotes -/

/-- A tag with one attribute. -/
def oneAttribute (name key value : Text) (style : ValueStyle) : WrittenTag := ⟨name, [⟨[' '], key, value, style⟩], []⟩

/-- An element in another one, and one that closes itself beside them; quotes hold what looks like their tags. -/
def quotedTags : Grove :=
  .element "a<".toList (oneAttribute "INCLUDE".toList "src".toList "</include>".toList (.quoted [' '] [] '"'))
    (.element "b".toList (oneAttribute "include".toList "x".toList "<include>".toList (.quoted [] [] '\''))
      (.text "c".toList) ⟨"include".toList, []⟩ (.text "d".toList))
    ⟨"Include".toList, [' ', '\n']⟩
    (.single "-".toList (oneAttribute "include".toList "y".toList "/>".toList (.quoted [] [] '"')) (.text "e".toList))

/-- The elements of that document behind two openings that nothing closes. -/
theorem scan_quotedTags :
    let name := "include".toList
    let open1 := oneAttribute name "z".toList "1".toList (.unquoted [] [])
    let front : Stray := [("-".toList, open1), ("".toList, open1)]
    let document := ("-<include z=1><include z=1>a<<INCLUDE src =\"</include>\">b<include x='<include>'>c</include>d" ++
      "</Include \n>-<include y=\"/>\"/>e").toList
    (IsName name ∧ quotedTags.Proper name ∧ front.Proper name) ∧ front.write ++ quotedTags.write = document ∧
      pieces name document =
        [.text "-<include z=1><include z=1>a<".toList,
          .element ⟨"<INCLUDE src =\"</include>\">".toList, [("src".toList, "</include>".toList)],
            some ("b<include x='<include>'>c</include>d".toList, "</Include \n>".toList)⟩,
          .text "-".toList, .element ⟨"<include y=\"/>\"/>".toList, [("y".toList, "/>".toList)], none⟩,
          .text "e".toList] := by
  intro name open1 front document
  have hname : IsName name := by decide
  have hproper : quotedTags.Proper name := by decide +kernel
  have hfront : front.Proper name := by decide +kernel
  have hdocument : front.write ++ quotedTags.write = document := by decide +kernel
  refine ⟨⟨hname, hproper, hfront⟩, hdocument, ?_⟩
  rw [← hdocument, ((scan_write hname hproper).2 front hfront).2]
  decide +kernel

end Grove

end Pagewright
