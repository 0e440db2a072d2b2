import Pagewright.Proofs.Storage.Memory
import Pagewright.Proofs.Storage.Place

/-!
# Collections that are kept and collections that are read

A collection that was made in a run is in the site, and its file is in the storage. Both hold the same items for as
long as the run goes on, although the files of two collections can be one and the same: then the collections were
made of the same directory. Three things live here:

* the file of a collection tells the directory (`Site.components_contentDirectory_of_same`), and the items of a
  directory do not change while collections are made (`Site.contentItems_of_grown`);
* what holds of a site after any documents and collections were made, successfully or not (`Site.Persisted`);
* so a later run that begins with the files only finds the same collections (`Site.collections_persisted`).
-/

namespace Pagewright

/-! ## The file of a collection -/

namespace Text

variable {sep : Char} {u : Text}

/-- What is written behind a text without a separator belongs to its last part. -/
theorem exists_split_append (h : sep ∉ u) (t : Text) :
    ∃ before last, split sep t = before ++ [last] ∧ split sep (t ++ u) = before ++ [last ++ u] := by
  induction t with
  | nil => exact ⟨[], [], rfl, split_of_notMem h⟩
  | cons c t ih =>
    obtain ⟨before, last, ht, htu⟩ := ih
    by_cases hc : c = sep
    · refine ⟨[] :: before, last, ?_, ?_⟩
      · rw [split, if_pos hc, ht, List.cons_append]
      · rw [List.cons_append, split, if_pos hc, htu, List.cons_append]
    · rw [List.cons_append, split, split, if_neg hc, if_neg hc, ht, htu]
      cases before with
      | nil => exact ⟨[], c :: last, rfl, rfl⟩
      | cons s before => exact ⟨(c :: s) :: before, last, rfl, rfl⟩

end Text

namespace Path

theorem ofSegment_inj {s t : Text} (h : ofSegment s = ofSegment t) : s = t := by
  unfold ofSegment at h
  split at h <;> split at h <;> simp_all

theorem isFiller_append_json (s : Text) : isFiller (s ++ ".json".toList) = false := by
  rw [isFiller, Bool.or_eq_false_iff, decide_eq_false_iff_not, decide_eq_false_iff_not]
  exact ⟨by simp, fun h => absurd (congrArg List.length h) (by simp)⟩

end Path

namespace Site

variable {name name' : Text} {base store : MemoryStore} {settings : SiteSettings} {stack : ℕ}

/-- The components of a content directory and of the file of its collection differ in the last one only. -/
theorem exists_components (name : Text) : ∃ before last,
    (Path.mk (contentCollection name)).components = Path.componentsOf before ++ Path.componentsOf [last] ∧
      (SitePath.collectionFile (contentCollection name)).components =
        .name "collections".toList :: (Path.componentsOf before ++ [Path.ofSegment (last ++ ".json".toList)]) := by
  have hjson : '/' ∉ ".json".toList := by decide
  obtain ⟨before, last, hsplit, hfile⟩ := Text.exists_split_append hjson (contentCollection name)
  have hplain : Path.IsPlain (contentCollection name) := by
    have hcons : contentCollection name = 'c' :: ("ontent/".toList ++ name) := rfl
    rw [hcons]
    exact ⟨by simp, by simp, fun r hr => absurd (List.cons.inj hr).1 (by decide)⟩
  refine ⟨before, last, ?_, ?_⟩
  · rw [Path.components_of_isPlain hplain, hsplit, Path.componentsOf_append]
  · have htext : (SitePath.collectionFile (contentCollection name)).components =
        .name "collections".toList :: Path.componentsOf (Text.split '/' (contentCollection name ++ ".json".toList)) :=
      Path.components_append (s := "collections".toList) (by decide) rfl (contentCollection name ++ ".json".toList)
    rw [htext, hfile, Path.componentsOf_append, Path.componentsOf_cons (Path.isFiller_append_json last)]
    rfl

/-- Two collections with one file are made of one directory. -/
theorem components_contentDirectory_of_same
    (h : (SitePath.collectionFile (contentCollection name)).same (SitePath.collectionFile (contentCollection name'))) :
    (Path.mk (contentCollection name)).components = (Path.mk (contentCollection name')).components := by
  obtain ⟨before, last, hdirectory, hfile⟩ := exists_components name
  obtain ⟨before', last', hdirectory', hfile'⟩ := exists_components name'
  have hsame := Path.components_eq_of_same h
  rw [hfile, hfile', List.cons.injEq] at hsame
  obtain ⟨hbefore, hlast⟩ := List.append_inj' hsame.2 rfl
  have htext : last ++ ".json".toList = last' ++ ".json".toList := Path.ofSegment_inj (List.cons.inj hlast).1
  rw [hdirectory, hdirectory', hbefore, List.append_cancel_right htext]

/-! ## The items of a directory -/

section

variable {σ : Type} [Storage σ]

theorem contentItems_of_list {site : Site σ} {directory : Path} {files : List Path}
    (h : Storage.list site.store directory = .ok files) :
    site.contentItems directory =
      (files.mapM fun p => (site.read p).map (contentItem p)).map fun items =>
        (sortContents site.settings.sortKey items).map Json.object := by
  rw [contentItems, h]
  rfl

end

theorem mapM_congr {α β ε : Type} {f g : α → Except ε β} {l : List α} (h : ∀ a ∈ l, f a = g a) :
    l.mapM f = l.mapM g := by
  induction l with
  | nil => rfl
  | cons a l ih =>
    rw [List.mapM_cons, List.mapM_cons, h a List.mem_cons_self, ih fun b hb => h b (List.mem_cons_of_mem a hb)]

/-- A directory has the same items under all of its names. -/
theorem contentItems_congr {site : Site MemoryStore} {directory directory' : Path} {items : List Json}
    (hsame : directory.components = directory'.components) (h : site.contentItems directory = .ok items) :
    site.contentItems directory' = .ok items := by
  have hbelow : site.store.below directory' = site.store.below directory := by
    unfold MemoryStore.below Path.isPrefixOf Path.same
    rw [hsame]
  have hinside : MemoryStore.isInside directory' = MemoryStore.isInside directory := by
    unfold MemoryStore.isInside Path.same
    rw [hsame]
  obtain ⟨files, hfiles⟩ := list_of_contentItems h
  have hlist : Storage.list site.store directory' = Storage.list site.store directory := by
    rw [hfiles]
    simp only [Storage.list, hbelow, hinside] at hfiles ⊢
    split at hfiles
    · cases hfiles
    · next hne => rw [if_neg hne, hfiles]
  rw [← h, contentItems, contentItems, hlist]

/-- The items of a content directory stay the same while collections are made. -/
theorem contentItems_of_grown {site : Site MemoryStore} (hstore : Grown base site.store) (name : Text) :
    site.contentItems ⟨contentCollection name⟩ =
      (ofStore base site.settings).contentItems ⟨contentCollection name⟩ := by
  obtain ⟨cs, hcs⟩ := components_contentDirectory name
  have hbelow := hstore.below_eq hcs (by decide)
  have hlist : Storage.list site.store ⟨contentCollection name⟩ = Storage.list base ⟨contentCollection name⟩ := by
    simp only [Storage.list, hbelow]
  have hread : ∀ p ∈ base.below ⟨contentCollection name⟩, Storage.read site.store p = Storage.read base p := by
    intro p hp
    obtain ⟨ds, hds⟩ : ∃ ds, p.components = .name "content".toList :: ds := by
      have hprefix := (Bool.and_eq_true_iff.1 (List.mem_filter.1 hp).2).1
      rw [Path.isPrefixOf, hcs, List.isPrefixOf_iff_prefix] at hprefix
      obtain ⟨ds, hds⟩ := hprefix
      exact ⟨cs ++ ds, hds.symm⟩
    simp only [Storage.read, hstore.get?_eq fun _ _ _ => not_same_collectionFile hds (by decide) _]
  cases hfiles : Storage.list base ⟨contentCollection name⟩ with
  | error e =>
    rw [contentItems, contentItems]
    show ((Storage.list site.store ⟨contentCollection name⟩).mapError _ >>= _) =
      ((Storage.list base ⟨contentCollection name⟩).mapError _ >>= _)
    rw [hlist, hfiles]
    rfl
  | ok files =>
    have hmem : ∀ p ∈ files, p ∈ base.below ⟨contentCollection name⟩ := by
      simp only [Storage.list] at hfiles
      split at hfiles
      · cases hfiles
      · obtain rfl := Except.ok.inj hfiles
        exact fun p hp => (List.mem_filter.1 hp).1
    have hitems : ∀ p ∈ files,
        (site.read p).map (contentItem p) = ((ofStore base site.settings).read p).map (contentItem p) := by
      intro p hp
      unfold Site.read
      exact congrArg (fun r => (Except.mapError TemplateError.storage r).map (contentItem p)) (hread p (hmem p hp))
    rw [contentItems_of_list (hlist.trans hfiles), contentItems_of_list hfiles, mapM_congr hitems]
    rfl

/-! ## What stays of a run -/

/-- The sites that are reached from a site by making documents and collections, whatever comes of it. -/
inductive Run {σ : Type} [Storage σ] (start : Site σ) : Site σ → Prop
  | start : Run start start
  | processFile {site site' : Site σ} {result : Except TemplateError Text} (p : Path) (frontmatter : Option Fields) :
    Run start site → Site.processFile p frontmatter site = some (result, site') → Run start site'
  | processContent {site site' : Site σ} {result : Except TemplateError Text} (p : Path) :
    Run start site → Site.processContent p site = some (result, site') → Run start site'
  | materialize {site site' : Site σ} {result : Except TemplateError Unit} (name : Text) :
    Run start site → Site.materialize name site = some (result, site') → Run start site'

theorem Run.materialized {σ : Type} [Storage σ] {start site : Site σ} (h : Run start site) (name : Text) :
    Run start (((Site.materialize name site).map Prod.snd).getD site) := by
  cases hmake : Site.materialize name site with
  | none => exact h
  | some made => exact h.materialize name hmake

/-- A site in which every collection is one of a content directory of the site at the start, and stands in its
file. -/
structure Persisted (base : MemoryStore) (settings : SiteSettings) (site : Site MemoryStore) : Prop where
  store : Grown base site.store
  sameSettings : site.settings = settings
  collections {name : Text} {items : List Json} : site.collections.get? name = some items →
    ∃ directory, name = contentCollection directory ∧
      (ofStore base settings).contentItems ⟨contentCollection directory⟩ = .ok items ∧
      site.store.get? (SitePath.collectionFile name) = some (Json.array items).pretty

theorem persisted_fresh (base : MemoryStore) (settings : SiteSettings) (stack : ℕ) :
    Persisted base settings (fresh base settings stack) :=
  ⟨.start, rfl, fun hget => by cases hget⟩

/-- Making a collection writes its file, and no other collection has another text in that file. -/
theorem persisted_materialize (name : Text) : Work.Preserves (Persisted base settings) (materialize name) := by
  intro site site' result h heq
  obtain ⟨hstore, rfl, hcollections⟩ := h
  cases hitems : site.contentItems ⟨contentCollection name⟩ with
  | error err =>
    rw [materialize_of_error hitems, Option.some.injEq, Prod.mk.injEq] at heq
    exact heq.2 ▸ ⟨hstore, rfl, hcollections⟩
  | ok items =>
    let file := SitePath.collectionFile (contentCollection name)
    have hbase := (contentItems_of_grown hstore name).symm.trans hitems
    obtain ⟨files, hfiles⟩ := list_of_contentItems hbase
    have hwritten : Storage.write site.store file (Json.array items).pretty =
        (.ok (), site.store.insert file (Json.array items).pretty) := rfl
    rw [materialize_of_written hitems hwritten, Option.some.injEq, Prod.mk.injEq] at heq
    refine heq.2 ▸ ⟨hstore.write (Json.array items).pretty hfiles, rfl, fun {other} {items'} hget => ?_⟩
    by_cases hother : other = contentCollection name
    · subst hother
      rw [Collections.get?_insert_self] at hget
      obtain rfl := Option.some.inj hget
      exact ⟨name, rfl, hbase, (MemoryStore.get?_insert _ _ _ _).trans (if_pos (decide_eq_true rfl))⟩
    · rw [Collections.get?_insert_of_ne hother] at hget
      obtain ⟨directory, rfl, hdirectory, hread⟩ := hcollections hget
      refine ⟨directory, rfl, hdirectory, (MemoryStore.get?_insert _ _ _ _).trans ?_⟩
      split
      · next hsame =>
        -- the two are made of the same directory
        have hother := contentItems_congr (components_contentDirectory_of_same hsame) hbase
        rw [hdirectory, Except.ok.injEq] at hother
        rw [hother]
      · exact hread

/-- Whatever documents and collections were made, successfully or not, every collection stands in its file. -/
theorem persisted_of_run {site : Site MemoryStore} (h : Run (fresh base settings stack) site) :
    Persisted base settings site := by
  induction h with
  | start => exact persisted_fresh base settings stack
  | processFile p frontmatter _ heq ih => exact preserves_processFile persisted_materialize p frontmatter _ _ _ ih heq
  | processContent p _ heq ih => exact preserves_processContent persisted_materialize p _ _ _ ih heq
  | materialize name _ heq ih => exact persisted_materialize name _ _ _ ih heq

/-! ## A later run -/

section Later

variable {site : Site MemoryStore}

/-- A later run reads from the file what this one has kept. -/
theorem collectionText_fresh
    (hread : ∀ name items, site.collections.get? name = some items →
      Storage.read site.store (SitePath.collectionFile name) = .ok (Json.array items).pretty)
    (hparse : ∀ name items, site.collections.get? name = some items →
      Json.parse? (Json.array items).pretty = some (.array items)) (name : Text) :
    (fresh site.store settings stack).collectionText name = site.collectionText name := by
  cases hget : site.collections.get? name with
  | none =>
    rw [collectionText, collectionText, hget]
    rfl
  | some items =>
    have hfile : (fresh site.store settings stack).read (SitePath.collectionFile name) = .ok (Json.array items).pretty := by
      rw [Site.read, fresh, hread name items hget]
      rfl
    have hnone : (fresh site.store settings stack).collections.get? name = none := rfl
    rw [collectionText, collectionText, hget, hfile, hnone]
    simp only [bind, Except.bind, hparse name items hget]
    rfl

theorem loopData?_fresh
    (hread : ∀ name items, site.collections.get? name = some items →
      Storage.read site.store (SitePath.collectionFile name) = .ok (Json.array items).pretty)
    (hparse : ∀ name items, site.collections.get? name = some items →
      Json.parse? (Json.array items).pretty = some (.array items)) (frontmatter : Option Fields) (name : Text) :
    (fresh site.store settings stack).loopData? frontmatter name = site.loopData? frontmatter name := by
  rw [loopData?, loopData?]
  cases Text.after? "frontmatter.".toList name with
  | some key => rfl
  | none =>
    cases hget : site.collections.get? name with
    | none => rfl
    | some items =>
      have hfile : (fresh site.store settings stack).read (SitePath.collectionFile name) = .ok (Json.array items).pretty := by
        rw [Site.read, fresh, hread name items hget]
        rfl
      show ((fresh site.store settings stack).read (SitePath.collectionFile name) >>= _) = _
      rw [hfile]
      exact congrArg Except.ok (hparse name items hget)

/-- What is kept and what stands in the files agree. After any documents and collections were made, successfully or
not, every collection stands in its file; and a run that begins with these files only, and can read its collections
back, gets the same data for every loop and the same text for every placeholder. -/
theorem collections_persisted (h : Run (fresh base settings stack) site) :
    (∀ name items, site.collections.get? name = some items →
        Storage.read site.store (SitePath.collectionFile name) = .ok (Json.array items).pretty) ∧
      ((∀ name items, site.collections.get? name = some items →
          Json.parse? (Json.array items).pretty = some (.array items)) →
        ∀ (settings' : SiteSettings) (stack' : ℕ),
          (∀ frontmatter name, (fresh site.store settings' stack').loopData? frontmatter name =
              site.loopData? frontmatter name) ∧
            ∀ t, (fresh site.store settings' stack').resolveCollections t = site.resolveCollections t) := by
  have hread : ∀ name items, site.collections.get? name = some items →
      Storage.read site.store (SitePath.collectionFile name) = .ok (Json.array items).pretty := by
    intro name items hget
    obtain ⟨-, -, -, hfile⟩ := (persisted_of_run h).collections hget
    exact MemoryStore.read_eq_ok_iff.2 hfile
  refine ⟨hread, fun hparse settings' stack' => ⟨loopData?_fresh hread hparse, fun t => ?_⟩⟩
  unfold resolveCollections
  simp only [collectionText_fresh hread hparse]

/-! ### A site with one collection -/

/-- A content directory with a file. -/
def shelfStart : Site MemoryStore :=
  fresh (.ofList [(⟨"content/shelf/a.md".toList⟩, "A \"text\"".toList)]) default 0

/-- The site after the collection of the directory was made. -/
def shelfMade : Site MemoryStore := ((materialize "shelf".toList shelfStart).map Prod.snd).getD shelfStart

/-- The item of the file. -/
def shelfItems : List Json :=
  [.object [("content".toList, .string "A \"text\"".toList), ("link".toList, .string "/shelf/a".toList)]]

/-- The collection can still be read when making another one has failed. -/
theorem loopData?_shelfMade :
    (materialize "other".toList shelfMade).map (fun made => made.1.isOk) = some false ∧
      shelfMade.collections = [("content/shelf".toList, shelfItems)] ∧
      (fresh shelfMade.store default 0).loopData? none "content/shelf".toList =
        shelfMade.loopData? none "content/shelf".toList := by
  have hrun : Run shelfStart shelfMade := Run.start.materialized _
  have hmade : shelfMade.collections = [("content/shelf".toList, shelfItems)] := by rfl
  have hparse : ∀ name items, shelfMade.collections.get? name = some items →
      Json.parse? (Json.array items).pretty = some (.array items) := by
    intro name items hget
    rw [hmade, Collections.get?] at hget
    split at hget
    · obtain rfl := Option.some.inj hget
      rfl
    · cases hget
  refine ⟨by decide +kernel, hmade, ?_⟩
  exact ((collections_persisted hrun).2 hparse default 0).1 none "content/shelf".toList

end Later

end Site

end Pagewright
