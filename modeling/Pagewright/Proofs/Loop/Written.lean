import Pagewright.Proofs.Loop.Expansion
import Pagewright.Proofs.Template.Element
import Pagewright.Proofs.Text.Substitution

/-!
# A loop as it is written

`Loop.written` is the usual form of a loop: a collection, a name for the items and a body. It is read back
as one element (`pieces_written`), and expanding it is expanding its rounds (`expandLoopsWithin_written`).
-/

namespace Pagewright

namespace Loop

/-- The attributes of a loop as they are written, with the end of the opening tag. -/
def writtenAttributes (collection scopeName : Text) : Text :=
  " collection=\"".toList ++ collection ++ "\" as=\"".toList ++ scopeName ++ "\">".toList

/-- The closing tag of a loop. -/
def closingTag : Text := "</ForEach>".toList

/-- The text of a loop over a collection. -/
def written (collection scopeName body : Text) : Text :=
  '<' :: (tag ++ (writtenAttributes collection scopeName ++ (body ++ closingTag)))

/-- Behind an opening tag, the text would be all of the body: it closes what it opens, and no more. -/
def IsBody (body : Text) : Prop :=
  Element.closing? tag 0 (body ++ closingTag) = some (body, closingTag, [])

/-- The element that is read from a loop as it is written. -/
def writtenElement (collection scopeName body : Text) : Element where
  opening := '<' :: (tag ++ writtenAttributes collection scopeName)
  attributes := [("collection".toList, collection), ("as".toList, scopeName)]
  content := some (body, closingTag)

variable {collection scopeName body : Text}

/-- A text without a `<` is a body. -/
theorem isBody_of_notMem (h : '<' ∉ body) : IsBody body := by
  have hclose : Element.afterClosing? tag (closingTag.drop 1) = some [] := by decide
  have htag : closingTag = '<' :: closingTag.drop 1 := by decide
  rw [IsBody, Element.closing?_append_of_notMem h, htag, Element.closing?_of_afterClosing? hclose, if_pos rfl]
  simp [Element.prepend, Text.consumed]

private theorem isName_collection : OpenTag.IsName "collection".toList :=
  ⟨by decide +kernel, 'c', "ollection".toList, by decide⟩

private theorem isName_as : OpenTag.IsName "as".toList := ⟨by decide +kernel, 'a', ['s'], by decide⟩

private theorem afterName?_append (name r : Text) : Element.afterName? name (name ++ r) = some r := by
  induction name with
  | nil => rfl
  | cons c name ih => simpa [Element.afterName?] using ih

theorem afterOpening?_written (collection scopeName r : Text) :
    Element.afterOpening? tag (tag ++ (writtenAttributes collection scopeName ++ r)) =
      some (writtenAttributes collection scopeName ++ r) := by
  have hblank : Text.isBlank ' ' = true := by decide
  unfold Element.afterOpening?
  rw [afterName?_append]
  unfold writtenAttributes
  simp [hblank]

/-- The attributes of a loop are read back. -/
theorem parse?_writtenAttributes (hc : '"' ∉ collection) (ha : '"' ∉ scopeName) (r : Text) :
    OpenTag.parse? (writtenAttributes collection scopeName ++ r) =
      some (⟨[("collection".toList, collection), ("as".toList, scopeName)], false⟩, r) := by
  have htext : writtenAttributes collection scopeName ++ r =
      ' ' :: ("collection".toList ++ "=\"".toList ++ collection ++
        '"' :: ' ' :: ("as".toList ++ "=\"".toList ++ scopeName ++ '"' :: '>' :: r)) := by
    unfold writtenAttributes
    simp
  rw [OpenTag.parse?, htext, OpenTag.parseFrom_blank (by decide),
    OpenTag.parseFrom_attribute isName_collection hc, OpenTag.parseFrom_blank (by decide),
    OpenTag.parseFrom_attribute isName_as ha, OpenTag.parseFrom_end]
  rfl

theorem find?_written (hc : '"' ∉ collection) (ha : '"' ∉ scopeName) (hb : IsBody body) :
    Element.find? tag (written collection scopeName body) =
      some ([], writtenElement collection scopeName body, []) := by
  have htext : written collection scopeName body =
      '<' :: (tag ++ writtenAttributes collection scopeName) ++ (body ++ closingTag) := by
    unfold written
    simp
  have hconsumed : Text.consumed (written collection scopeName body) (body ++ closingTag) =
      '<' :: (tag ++ writtenAttributes collection scopeName) := by
    rw [htext, Text.consumed, List.length_append, Nat.add_sub_cancel, List.take_left]
  have hfind := Element.find?_of_closing? (afterOpening?_written collection scopeName _)
    (parse?_writtenAttributes hc ha _) rfl hb
  unfold written at hconsumed ⊢
  rw [hfind, hconsumed]
  rfl

/-- A loop as it is written is one element. -/
theorem pieces_written (hc : '"' ∉ collection) (ha : '"' ∉ scopeName) (hb : IsBody body) :
    pieces tag (written collection scopeName body) =
      [.text [], .element (writtenElement collection scopeName body), .text []] := by
  rw [pieces_of_find? (find?_written hc ha hb),
    pieces_of_find?_eq_none (Element.find?_eq_none_of_notMem (by simp))]

end Loop

namespace Site

open Loop

variable {σ : Type} [Storage σ] {site : Site σ} {frontmatter : Option Fields}
  {collection scopeName body : Text} {items : List Json}

/-- The rounds of a loop: its body for each of the items, in their order. -/
def roundsOf (body : Text) (items : List Json) (scopeName : Text) : List Text :=
  items.mapIdx fun index item => renderItem body item index scopeName

theorem rounds?_writtenElement
    (hdata : site.loopData? frontmatter collection = .ok (some (.array items))) :
    site.rounds? frontmatter (writtenElement collection scopeName body) =
      .ok (some (roundsOf body items scopeName)) := by
  have hitems : site.loopItems? frontmatter (writtenElement collection scopeName body) collection =
      .ok (some items) := by
    simp [loopItems?, hdata, writtenElement, Element.attribute?, Attributes.get?, window,
      countAttribute?, bind, Except.bind, pure, Except.pure]
  have halias : aliasOf (writtenElement collection scopeName body) collection = scopeName := by
    simp [aliasOf, writtenElement, Element.attribute?, Attributes.get?]
  have hbody : (writtenElement collection scopeName body).body? = some body := rfl
  have hname : (writtenElement collection scopeName body).attribute? "collection".toList =
      some collection := by
    simp [writtenElement, Element.attribute?, Attributes.get?]
  simp only [rounds?, hbody, hname, hitems, halias, bind, Except.bind, pure, Except.pure, roundsOf]

/-- Between empty texts a piece stands for the whole. -/
theorem inSequence_between {f : Text → Option (Except TemplateError Text)} (p : Piece) :
    inSequence (site.expandPiece frontmatter f) [.text [], p, .text []] =
      site.expandPiece frontmatter f p := by
  have hempty : site.expandPiece frontmatter f (.text []) = some (.ok []) := rfl
  rw [inSequence_cons_of_ok hempty]
  cases hp : site.expandPiece frontmatter f p with
  | none => rw [inSequence_cons_of_none hp]; rfl
  | some r =>
    cases r with
    | error err => rw [inSequence_cons_of_error hp]; rfl
    | ok out =>
      rw [inSequence_cons_of_ok hp, inSequence_cons_of_ok hempty]
      simp [Except.map]

/-- Expanding a loop is expanding its rounds. -/
theorem expandLoopsWithin_written (hc : '"' ∉ collection) (ha : '"' ∉ scopeName) (hb : IsBody body)
    (hdata : site.loopData? frontmatter collection = .ok (some (.array items))) (n : ℕ) :
    site.expandLoopsWithin frontmatter (n + 1) (written collection scopeName body) =
      inSequence (site.expandLoopsWithin frontmatter n) (roundsOf body items scopeName) := by
  rw [expandLoopsWithin_succ, pieces_written hc ha hb, inSequence_between,
    expandPiece_element (rounds?_writtenElement hdata)]

end Site

end Pagewright
