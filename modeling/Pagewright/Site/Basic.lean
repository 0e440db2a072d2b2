import Pagewright.Frontmatter.Document
import Pagewright.Json.Display
import Pagewright.Json.Reader
import Pagewright.Site.Settings
import Pagewright.Storage.Basic

/-! # `Site`: what documents are made from

A site is a storage with the pages, layouts, partials and contents, the settings, and the collections that
were made in this run. What goes wrong while a document is made is a `TemplateError`.
-/

namespace Pagewright

/-- Why a document could not be made. -/
inductive TemplateError
  /-- The layout of a document does not say which one it is. -/
  | missingLayoutSource (path : Path)
  | storage (e : StorageError)
  /-- The header of a document is no YAML. -/
  | frontmatter (path : Path)
  /-- Partials are nested too deep. -/
  | depthExceeded (source : Text) (maxDepth : Nat)
  /-- No page is made for a content file. -/
  | pageNotFound (path : Path)
  /-- A collection is no JSON. -/
  | json (path : Path)
deriving DecidableEq, Inhabited

/-- The text of an error. -/
def TemplateError.message : TemplateError → Text
  | missingLayoutSource path => "Layout tag must include a src attribute: ".toList ++ path.text
  | storage e => "Storage error: ".toList ++ e.message
  | frontmatter path => "Invalid frontmatter in ".toList ++ path.text
  | depthExceeded source maxDepth =>
    "Include depth limit of ".toList ++ Text.ofNat maxDepth ++ " exceeded while expanding '".toList ++
      source ++ "' (cyclic include?)".toList
  | pageNotFound path => "No page template found for content file: ".toList ++ path.text
  | json path => "Invalid JSON in ".toList ++ path.text

/-! ## Collections -/

/-- Collections by name. -/
abbrev Collections := List (Text × List Json)

namespace Collections

/-- The items of a collection. -/
def get? (name : Text) : Collections → Option (List Json)
  | [] => none
  | (k, items) :: rest => if k = name then some items else get? name rest

/-- The collections with one of a name, in place of the one that there may have been. -/
def insert (name : Text) (items : List Json) : Collections → Collections
  | [] => [(name, items)]
  | (k, old) :: rest =>
    if k = name then (k, items) :: rest else (k, old) :: insert name items rest

theorem get?_insert_self (name : Text) (items : List Json) (cs : Collections) :
    get? name (insert name items cs) = some items := by
  induction cs with
  | nil => simp [insert, get?]
  | cons c rest ih =>
    obtain ⟨k, old⟩ := c
    by_cases h : k = name <;> simp [insert, get?, h, ih]

theorem get?_insert_of_ne {name other : Text} (h : other ≠ name) (items : List Json)
    (cs : Collections) : get? other (insert name items cs) = get? other cs := by
  induction cs with
  | nil => simp [insert, get?, Ne.symm h]
  | cons c rest ih =>
    obtain ⟨k, old⟩ := c
    by_cases hk : k = name
    · simp [insert, get?, hk, Ne.symm h]
    · by_cases ho : k = other
      · subst ho
        simp [insert, get?, hk]
      · simp [insert, get?, hk, ho, ih]

end Collections

/-! ## Sites -/

/-- A site whose files are kept in a storage of some kind. -/
structure Site (σ : Type) where
  store : σ
  settings : SiteSettings
  /-- The collections that were made in this run. -/
  collections : Collections
  /-- How deep rounds of loops may be open inside of the rounds of a text; more do not fit on the stack. -/
  stack : Nat := 10000
deriving Inhabited

namespace Site

variable {σ : Type} [Storage σ]

/-- A site at the start of a run. -/
def ofStore (store : σ) (settings : SiteSettings) : Site σ := { store, settings, collections := [] }

/-- The text of a file of the site. -/
def read (site : Site σ) (p : Path) : Except TemplateError Text :=
  (Storage.read site.store p).mapError .storage

/-- Work that makes a document and may change the site on the way, also when it fails. It has no result
(`none`) when it uses up the stack. -/
abbrev Work (σ : Type) := ExceptT TemplateError (StateT (Site σ) Option)

/-- Work that only looks at the site, and that may use up the stack. -/
def watch {α : Type} (f : Site σ → Option (Except TemplateError α)) : Work σ α := fun site =>
  (f site).map fun result => (result, site)

/-- Work that only looks at the site. -/
def look {α : Type} (f : Site σ → Except TemplateError α) : Work σ α := watch fun site => some (f site)

/-- Replaces the text of a file of the site. -/
def write (p : Path) (t : Text) : Work σ Unit := do
  let site ← get
  let (result, store) := Storage.write site.store p t
  set { site with store := store }
  match result with
  | .ok () => return ()
  | .error e => throw (.storage e)

end Site

/-! ## Where things are -/

namespace SitePath

/-- The directory of the pages. -/
def pages : Path := ⟨"pages".toList⟩

/-- The directory of the layouts. -/
def layouts : Path := ⟨"layouts".toList⟩

/-- The directory of the partials. -/
def includes : Path := ⟨"includes".toList⟩

/-- The directory of the contents. -/
def content : Path := ⟨"content".toList⟩

/-- The directory of the global contents. -/
def globals : Path := ⟨"content/global".toList⟩

/-- The directory of the collections. -/
def collections : Path := ⟨"collections".toList⟩

/-- The style sheet of the site. -/
def styleSheet : Path := ⟨"assets/css/main.css".toList⟩

/-- The name of the page that is made for every content file of a directory. -/
def contentTemplate : Text := "[content].html".toList

/-- The file of a collection. -/
def collectionFile (name : Text) : Path := collections.joinText (name ++ ".json".toList)

/-- The file of global contents. -/
def globalFile (name : Text) : Path := globals.joinText (name ++ ".md".toList)

/-- The route of a content file. -/
def contentLink (p : Path) : Text :=
  '/' :: Text.join ['/'] (((p.relativeTo content).withExtension []).components.map
    Path.Component.text)

end SitePath

end Pagewright
