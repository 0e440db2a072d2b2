import Pagewright.Json.Writer
import Pagewright.Site.Basic

/-! # `Site.Collection`: contents as items of a collection

The files of a content directory become the items of a collection: their frontmatter, their text and their
route. A collection is kept for the run and written to a file.
-/

namespace Pagewright

/-- The item of a content file. -/
def contentItem (p : Path) (raw : Text) : Fields :=
  let d := Document.parseLenient raw
  (d.attributes.insert "content".toList (.string (Text.trim d.body))).insert "link".toList
    (.string (SitePath.contentLink p))

/-- The value of a field as it is shown. -/
def sortText (key : Text) (item : Fields) : Text := ((item.get? key).map Json.display).getD []

/-- Puts items in the order of a field as it is shown, if all have it; those that are equal keep their
order. -/
def sortContents (key : Text) (items : List Fields) : List Fields :=
  if items.all fun item => (item.get? key).isSome then
    items.mergeSort fun a b => Text.compare (sortText key a) (sortText key b) != .gt
  else items

namespace Site

variable {σ : Type} [Storage σ]

/-- The items of a content directory. -/
def contentItems (site : Site σ) (directory : Path) : Except TemplateError (List Json) := do
  let files ← (Storage.list site.store directory).mapError .storage
  let items ← files.mapM fun p => do return contentItem p (← site.read p)
  return (sortContents site.settings.sortKey items).map .object

/-- Makes a collection of a content directory: writes its file and keeps it. -/
def materialize (name : Text) : Work σ Unit := do
  let collection := "content/".toList ++ name
  let items ← look fun site => site.contentItems ⟨collection⟩
  write (SitePath.collectionFile collection) (Json.array items).pretty
  modify fun site => { site with collections := site.collections.insert collection items }

end Site

end Pagewright
