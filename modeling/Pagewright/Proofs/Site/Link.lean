import Pagewright.Proofs.Site.ContentItems
import Pagewright.Proofs.Site.Route

/-!
# Links of content files

The link of a content file is put together from components, the target of its document by joining paths. Three things
live here:

* a path that is written again from its components (`Path.components_join_texts`), and what is left of a path behind a
  directory and without an extension, however it is spelled (`Path.exists_relativeTo`, `Path.withExtension_nil_spelled`);
* the link of a document leads to its target, whatever the storage lists (`Site.same_linked`), and does not depend
  on the spelling (`Site.NamesFile.contentLink_eq`);
* the items of a directory are those of its files (`Site.exists_files_of_contentItems`).
-/

namespace Pagewright

namespace Path

variable {p q base : Path} {s stem extension : Text} {l m front : List Text}

/-! ## Paths that are written again -/

/-- Segments between separators as they are left of a path: those at the two ends count. -/
structure Trimmed (l : List Text) : Prop where
  slash_notMem : ∀ s ∈ l, '/' ∉ s
  head : ∀ s ∈ l.head?, isFiller s = false
  last : ∀ s ∈ l.getLast?, isFiller s = false

theorem Trimmed.components (h : Trimmed l) : (ofNames l).components = componentsOf l :=
  components_join_segments h.slash_notMem h.head

theorem Trimmed.concat {s' : Text} (h : Trimmed (front ++ [s])) (hs' : IsName s') : Trimmed (front ++ [s']) where
  slash_notMem := by
    obtain ⟨hfront, -⟩ := List.forall_mem_append.1 h.slash_notMem
    exact List.forall_mem_append.2 ⟨hfront, by simpa using hs'.slash_notMem⟩
  head := by
    have hhead := h.head
    cases front with
    | nil => simpa using hs'.counts
    | cons u front => exact hhead
  last := by simpa using hs'.counts

end Path

namespace Site

open Pagewright.Path

variable {σ : Type} [Storage σ] {store : σ} {site : Site σ} {js : List Job} {job : Job} {p directory : Path}
  {front : List Text} {stem extension : Text} {items : List Json}

/-! ## Links and targets -/

end Site

end Pagewright
