import Pagewright.Proofs.Site.Registry
import Pagewright.Proofs.Storage.Order

/-!
# Collections in any order

Making a collection reads a content directory and writes a file. Three things live here:

* what is found after a list of writes, when those to one place agree: the order of the writes and how often each is
  done make no difference (`Site.found_foldl_congr`);
* a run of collections is such a list of writes, since no collection changes what another one is made of
  (`Site.forM_materialize_eq_ok_iff`);
* so any two runs of the same collections end in the same site, with the files outside of the collections as they were
  (`Site.forM_materialize_any_order`).
-/

namespace Pagewright

namespace Site

/-! ## Writes in any order -/

section Writes

variable {σ κ ν : Type} {found : σ → κ → Option ν} {put : σ → Text → σ} {IsAt : Text → κ → Bool} {value : Text → ν}
  {names names' : List Text} {key : κ}

/-- After a write, the value is found at its place, and everything else as before. -/
def Puts (found : σ → κ → Option ν) (put : σ → Text → σ) (IsAt : Text → κ → Bool) (value : Text → ν) : Prop :=
  ∀ s name key, found (put s name) key = if IsAt name key then some (value name) else found s key

variable (hput : Puts found put IsAt value)
include hput

theorem found_foldl_of_notMem (h : ∀ name ∈ names, IsAt name key = false) (s : σ) :
    found (names.foldl put s) key = found s key := by
  induction names using List.reverseRecOn with
  | nil => rfl
  | append_singleton names name ih =>
    obtain ⟨hnames, hname⟩ := List.forall_mem_append.1 h
    rw [List.foldl_append, List.foldl_cons, List.foldl_nil, hput, hname name List.mem_cons_self, ih hnames]
    rfl

theorem found_foldl_of_mem {v : ν} (hvalue : ∀ name ∈ names, IsAt name key → value name = v)
    (h : ∃ name ∈ names, IsAt name key) (s : σ) : found (names.foldl put s) key = some v := by
  induction names using List.reverseRecOn with
  | nil =>
    obtain ⟨name, hname, -⟩ := h
    cases hname
  | append_singleton names name ih =>
    obtain ⟨hnames, hname⟩ := List.forall_mem_append.1 hvalue
    rw [List.foldl_append, List.foldl_cons, List.foldl_nil, hput]
    split
    · next hat => rw [hname name List.mem_cons_self hat]
    · next hat =>
      -- the last write goes elsewhere, so it is one of those before
      obtain ⟨other, hother, hotherAt⟩ := h
      rcases List.mem_append.1 hother with hother | hother
      · exact ih hnames ⟨other, hother, hotherAt⟩
      · exact absurd (List.mem_singleton.1 hother ▸ hotherAt) hat

/-- Where all writes to one place agree, it makes no difference in what order they are done and how often. -/
theorem found_foldl_congr (hvalue : ∀ name ∈ names, ∀ name' ∈ names, IsAt name key → IsAt name' key →
      value name = value name')
    (hnames : ∀ name, name ∈ names' ↔ name ∈ names) (s : σ) :
    found (names'.foldl put s) key = found (names.foldl put s) key := by
  by_cases h : ∃ name ∈ names, IsAt name key
  · obtain ⟨name, hname, hat⟩ := h
    have hsame : ∀ other ∈ names, IsAt other key → value other = value name := fun other hother hotherAt =>
      hvalue other hother name hname hotherAt hat
    rw [found_foldl_of_mem hput hsame ⟨name, hname, hat⟩,
      found_foldl_of_mem hput (fun other hother => hsame other ((hnames other).1 hother))
        ⟨name, (hnames name).2 hname, hat⟩]
  · have hnone : ∀ name ∈ names, IsAt name key = false := fun name hname =>
      Bool.eq_false_iff.2 fun hat => h ⟨name, hname, hat⟩
    rw [found_foldl_of_notMem hput hnone,
      found_foldl_of_notMem hput fun name hname => hnone name ((hnames name).1 hname)]

end Writes

/-! ## A run of collections -/

variable {start site made : Site MemoryStore} {name : Text} {names names' : List Text} {items : Text → List Json}

/-- The site with a collection of a content directory, kept and written. -/
def withCollection (site : Site MemoryStore) (name : Text) (items : List Json) : Site MemoryStore :=
  { site with
    store := site.store.insert (SitePath.collectionFile (contentCollection name)) (Json.array items).pretty
    collections := site.collections.insert (contentCollection name) items }

/-- The site with collections that were made one after the other. -/
def withCollections (site : Site MemoryStore) (items : Text → List Json) (names : List Text) : Site MemoryStore :=
  names.foldl (fun site name => site.withCollection name (items name)) site

/-- A collection is made of what is in its directory. -/
theorem materialize_eq_ok_iff : materialize name site = some (.ok (), made) ↔
    ∃ l, site.contentItems ⟨contentCollection name⟩ = .ok l ∧ site.withCollection name l = made := by
  cases hitems : site.contentItems ⟨contentCollection name⟩ with
  | error err => simp [materialize_of_error hitems]
  | ok l =>
    have hmake : materialize name site = some (.ok (), site.withCollection name l) := materialize_of_written hitems rfl
    simp [hmake]

/-- What collections are made of stays as it was at the start. -/
theorem contentItems_eq_of_grown (hstore : Grown start.store site.store) (hsettings : site.settings = start.settings)
    (name : Text) : site.contentItems ⟨contentCollection name⟩ = start.contentItems ⟨contentCollection name⟩ := by
  have hstart : start.contentItems ⟨contentCollection name⟩ =
      (ofStore start.store start.settings).contentItems ⟨contentCollection name⟩ := contentItems_of_grown .start name
  rw [contentItems_of_grown hstore, hsettings, hstart]

theorem grown_withCollection {l : List Json} (hstore : Grown start.store site.store)
    (hitems : start.contentItems ⟨contentCollection name⟩ = .ok l) :
    Grown start.store (site.withCollection name l).store := by
  obtain ⟨files, hfiles⟩ := list_of_contentItems hitems
  exact hstore.write _ hfiles

private theorem forM_materialize_cons (name : Text) (names : List Text) :
    ((name :: names).forM materialize : Work MemoryStore PUnit) =
      (materialize name >>= fun _ => names.forM materialize) := rfl

/-- Collections can be made one after the other if each can be made at the start. -/
theorem forM_materialize_of_items
    (hitems : ∀ name ∈ names, start.contentItems ⟨contentCollection name⟩ = .ok (items name))
    (hstore : Grown start.store site.store) (hsettings : site.settings = start.settings) :
    (names.forM materialize : Work MemoryStore PUnit) site = some (.ok (), site.withCollections items names) := by
  -- the site moves on with each collection, while its storage stays one that has grown from the start
  induction names generalizing site with
  | nil => rfl
  | cons name names ih =>
    obtain ⟨hname, hnames⟩ := List.forall_mem_cons.1 hitems
    have hmake : materialize name site = some (.ok (), site.withCollection name (items name)) :=
      materialize_eq_ok_iff.2 ⟨_, (contentItems_eq_of_grown hstore hsettings name).trans hname, rfl⟩
    rw [forM_materialize_cons, Work.bind_of_ok hmake]
    exact ih hnames (grown_withCollection hstore hname) hsettings

/-- If collections were made one after the other, each can be made at the start. -/
theorem exists_items_of_forM_materialize
    (h : (names.forM materialize : Work MemoryStore PUnit) site = some (.ok (), made))
    (hstore : Grown start.store site.store) (hsettings : site.settings = start.settings) :
    ∀ name ∈ names, ∃ l, start.contentItems ⟨contentCollection name⟩ = .ok l := by
  induction names generalizing site with
  | nil => exact fun name hname => absurd hname List.not_mem_nil
  | cons name names ih =>
    rw [forM_materialize_cons] at h
    cases hmake : materialize name site with
    | none =>
      rw [Work.bind_of_none hmake] at h
      cases h
    | some result =>
      obtain ⟨result, next⟩ := result
      cases result with
      | error err =>
        rw [Work.bind_of_error hmake] at h
        cases h
      | ok =>
        rw [Work.bind_of_ok hmake] at h
        obtain ⟨l, hl, rfl⟩ := materialize_eq_ok_iff.1 hmake
        rw [contentItems_eq_of_grown hstore hsettings] at hl
        exact List.forall_mem_cons.2 ⟨⟨l, hl⟩, ih h (grown_withCollection hstore hl) hsettings⟩

/-- A run of collections succeeds if each of them can be made at the start; it keeps and writes them. -/
theorem forM_materialize_eq_ok_iff : (names.forM materialize : Work MemoryStore PUnit) site = some (.ok (), made) ↔
    ∃ items : Text → List Json, (∀ name ∈ names, site.contentItems ⟨contentCollection name⟩ = .ok (items name)) ∧
      site.withCollections items names = made := by
  constructor
  · intro h
    have hitems := exists_items_of_forM_materialize h .start rfl
    choose! items hitems using hitems
    rw [forM_materialize_of_items hitems .start rfl, Option.some.injEq, Prod.mk.injEq] at h
    exact ⟨items, hitems, h.2⟩
  · rintro ⟨items, hitems, rfl⟩
    exact forM_materialize_of_items hitems .start rfl

/-! ## Any order -/

/-- The directory of the collections of content directories. -/
def contentCollections : Path := ⟨"collections/content".toList⟩

/-- The path is inside the directory of the collections of content directories. -/
def IsInCollections (p : Path) : Prop := contentCollections.isPrefixOf p ∧ ¬ p.same contentCollections

instance (p : Path) : Decidable (IsInCollections p) := inferInstanceAs (Decidable (_ ∧ _))

/-- Two sites that cannot be told apart: the same collections by name, and the same files with the same texts, where
paths are compared as paths. -/
structure Same (site site' : Site MemoryStore) : Prop where
  settings : site.settings = site'.settings
  stack : site.stack = site'.stack
  collections : ∀ name, site.collections.get? name = site'.collections.get? name
  files : List.Forall₂ (fun file file' => file.1.same file'.1 ∧ file.2 = file'.2) site.store.files site'.store.files

theorem IsInCollections.of_same {p q : Path} (h : IsInCollections p) (hsame : p.same q) : IsInCollections q := by
  unfold IsInCollections Path.isPrefixOf Path.same at h ⊢
  rwa [← Path.components_eq_of_same hsame]

theorem isInCollections_collectionFile (name : Text) :
    IsInCollections (SitePath.collectionFile (contentCollection name)) := by
  have hjson : '/' ∉ ".json".toList := by decide
  -- the last segment of the file ends in `.json`, so it is no filler: the file is inside the directory, not the
  -- directory itself
  obtain ⟨before, last, -, hsplit⟩ := Text.exists_split_append hjson name
  have hcontent : Text.split '/' (contentCollection name ++ ".json".toList) =
      "content".toList :: (before ++ [last ++ ".json".toList]) := by
    have hslash : '/' ∉ "content".toList := by decide
    rw [← hsplit]
    exact Text.split_append_cons hslash (name ++ ".json".toList)
  have hcomponents : (SitePath.collectionFile (contentCollection name)).components =
      contentCollections.components ++ (Path.componentsOf before ++ [Path.ofSegment (last ++ ".json".toList)]) := by
    have htext : (SitePath.collectionFile (contentCollection name)).components =
        .name "collections".toList :: Path.componentsOf (Text.split '/' (contentCollection name ++ ".json".toList)) :=
      Path.components_append (s := "collections".toList) (by decide) rfl (contentCollection name ++ ".json".toList)
    rw [htext, hcontent, Path.componentsOf_cons (by decide), Path.componentsOf_append,
      Path.componentsOf_cons (Path.isFiller_append_json last)]
    rfl
  unfold IsInCollections Path.isPrefixOf Path.same
  rw [List.isPrefixOf_iff_prefix, decide_eq_true_iff, hcomponents]
  exact ⟨List.prefix_append _ _, by simp⟩

/-- Collections that are written to one file have the same items. -/
theorem items_eq_of_same (hitems : ∀ name ∈ names, site.contentItems ⟨contentCollection name⟩ = .ok (items name))
    {name name' : Text} (hname : name ∈ names) (hname' : name' ∈ names)
    (hsame : (SitePath.collectionFile (contentCollection name)).same
      (SitePath.collectionFile (contentCollection name'))) : items name = items name' := by
  have hother := contentItems_congr (components_contentDirectory_of_same hsame) (hitems name hname)
  exact (Except.ok.inj ((hitems name' hname').symm.trans hother)).symm

theorem withCollections_kept (site : Site MemoryStore) (items : Text → List Json) (names : List Text) :
    (site.withCollections items names).settings = site.settings ∧
      (site.withCollections items names).stack = site.stack ∧
      (site.store.Ascending → (site.withCollections items names).store.Ascending) ∧
      ∀ file, ¬ IsInCollections file.1 →
        (file ∈ (site.withCollections items names).store.files ↔ file ∈ site.store.files) := by
  induction names generalizing site with
  | nil => exact ⟨rfl, rfl, id, fun _ _ => Iff.rfl⟩
  | cons name names ih =>
    obtain ⟨hsettings, hstack, hascending, hfiles⟩ := ih (site.withCollection name (items name))
    refine ⟨hsettings, hstack, fun h => hascending (h.insert _ _), fun file hfile => (hfiles file hfile).trans ?_⟩
    exact MemoryStore.mem_files_insert_iff fun hsame => hfile ((isInCollections_collectionFile name).of_same hsame)

/-- The same collections make the same site, in whatever order they are made and how often. -/
theorem same_withCollections (hascending : site.store.Ascending)
    (hitems : ∀ name ∈ names, site.contentItems ⟨contentCollection name⟩ = .ok (items name))
    (hnames : ∀ name, name ∈ names' ↔ name ∈ names) :
    Same (site.withCollections items names') (site.withCollections items names) := by
  obtain ⟨hsettings, hstack, hstore, -⟩ := site.withCollections_kept items names
  obtain ⟨hsettings', hstack', hstore', -⟩ := site.withCollections_kept items names'
  have hcollections : Puts (fun (site : Site MemoryStore) key => site.collections.get? key)
      (fun site name => site.withCollection name (items name)) (fun name key => contentCollection name = key)
      items := by
    intro site name key
    by_cases hkey : contentCollection name = key
    · subst hkey
      rw [if_pos (decide_eq_true rfl)]
      exact Collections.get?_insert_self _ _ _
    · rw [if_neg (by simpa using hkey)]
      exact Collections.get?_insert_of_ne (Ne.symm hkey) _ _
  have hfiles : Puts (fun (site : Site MemoryStore) p => site.store.get? p)
      (fun site name => site.withCollection name (items name))
      (fun name p => (SitePath.collectionFile (contentCollection name)).same p)
      fun name => (Json.array (items name)).pretty := fun site name p => MemoryStore.get?_insert _ _ _ _
  refine ⟨hsettings'.trans hsettings.symm, hstack'.trans hstack.symm, fun key => ?_,
    (hstore' hascending).forall₂_of_get?_eq (hstore hascending) fun p => ?_⟩
  · refine found_foldl_congr hcollections (fun name _ name' _ hname hname' => ?_) hnames site
    have heq : contentCollection name = contentCollection name' :=
      (of_decide_eq_true hname).trans (of_decide_eq_true hname').symm
    rw [List.append_cancel_left heq]
  · refine found_foldl_congr hfiles (fun name hmem name' hmem' hname hname' => ?_) hnames site
    have hsame : (SitePath.collectionFile (contentCollection name)).same
        (SitePath.collectionFile (contentCollection name')) :=
      decide_eq_true ((Path.components_eq_of_same hname).trans (Path.components_eq_of_same hname').symm)
    rw [items_eq_of_same hitems hmem hmem' hsame]

/-- The order of collections does not matter. A run of collections succeeds if each of them can be made at the start.
Then any other run of the same ones, in whatever order and however often, ends in the same site; and the files outside
of the collections of content directories are as they were. -/
theorem forM_materialize_any_order (hascending : site.store.Ascending) :
    ((∃ made, (names.forM materialize : Work MemoryStore PUnit) site = some (.ok (), made)) ↔
        ∀ name ∈ names, ∃ made, materialize name site = some (.ok (), made)) ∧
      ∀ made, (names.forM materialize : Work MemoryStore PUnit) site = some (.ok (), made) →
        (∀ names' : List Text, (∀ name, name ∈ names' ↔ name ∈ names) →
            ∃ made', (names'.forM materialize : Work MemoryStore PUnit) site = some (.ok (), made') ∧ Same made' made) ∧
          ∀ file, ¬ IsInCollections file.1 → (file ∈ made.store.files ↔ file ∈ site.store.files) := by
  refine ⟨?_, fun made hmade => ?_⟩
  · simp only [forM_materialize_eq_ok_iff, materialize_eq_ok_iff]
    constructor
    · rintro ⟨made, items, hitems, -⟩ name hname
      exact ⟨_, _, hitems name hname, rfl⟩
    · intro h
      choose! made items hitems using h
      exact ⟨_, items, fun name hname => (hitems name hname).1, rfl⟩
  · obtain ⟨items, hitems, rfl⟩ := forM_materialize_eq_ok_iff.1 hmade
    refine ⟨fun names' hnames => ?_, (site.withCollections_kept items names).2.2.2⟩
    have hitems' : ∀ name ∈ names', site.contentItems ⟨contentCollection name⟩ = .ok (items name) :=
      fun name hname => hitems name ((hnames name).1 hname)
    exact ⟨_, forM_materialize_eq_ok_iff.2 ⟨items, hitems', rfl⟩, same_withCollections hascending hitems hnames⟩

/-! ### Shelves -/

/-- Two content directories, one inside a third one, and a collection that is no content directory. -/
def shelvesStore : MemoryStore :=
  ⟨[(⟨"collections/menu.json".toList⟩, "[]".toList), (⟨"content/notes/b.md".toList⟩, "B".toList),
    (⟨"content/shelf/old/a.md".toList⟩, "A".toList)]⟩

/-- A site with the directories. -/
def shelvesSite : Site MemoryStore := .ofStore shelvesStore .default

/-- The directories, one of them under two names. -/
def shelfNames : List Text := ["shelf/old".toList, "notes".toList, "shelf//old".toList]

theorem forM_materialize_any_order_shelves :
    shelvesSite.store.Ascending ∧
      ∃ made made', (shelfNames.forM materialize : Work MemoryStore PUnit) shelvesSite = some (.ok (), made) ∧
        ((shelfNames ++ shelfNames.reverse).forM materialize : Work MemoryStore PUnit) shelvesSite =
          some (.ok (), made') ∧
        Same made' made ∧ (⟨"collections/menu.json".toList⟩, "[]".toList) ∈ made.store.files := by
  have hascending : shelvesSite.store.Ascending := by
    unfold MemoryStore.Ascending
    decide +kernel
  obtain ⟨hmakes, hsame⟩ := @forM_materialize_any_order shelvesSite shelfNames hascending
  have heach : ∀ name ∈ shelfNames, ∃ made, materialize name shelvesSite = some (.ok (), made) := by
    simp only [shelfNames, List.forall_mem_cons, List.not_mem_nil, IsEmpty.forall_iff, implies_true, and_true]
    exact ⟨⟨_, rfl⟩, ⟨_, rfl⟩, ⟨_, rfl⟩⟩
  obtain ⟨made, hmade⟩ := hmakes.2 heach
  obtain ⟨horder, hkept⟩ := hsame made hmade
  obtain ⟨made', hmade', hsites⟩ := horder (shelfNames ++ shelfNames.reverse) (by simp)
  exact ⟨hascending, made, made', hmade, hmade', hsites, (hkept _ (by decide +kernel)).2 List.mem_cons_self⟩

end Site

end Pagewright
