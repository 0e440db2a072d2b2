import Pagewright.Proofs.Frontmatter.Header
import Pagewright.Proofs.Site.Registry
import Pagewright.Proofs.Storage.Listing
import Pagewright.Proofs.Storage.Spelling
import Pagewright.Proofs.Storage.Tree
import Pagewright.Proofs.Template.Replacement

/-!
# The items of a directory

A collection is made of the files that are directly inside a directory. Three things live here:

* what the item of a file holds: its header, its text and its route (`fieldOfFile`), each name once
  (`isItemOf_contentItem`);
* the order of the items, for any storage that lists the files in the order of their paths
  (`Site.itemizes_of_list`);
* which files these are, in memory (`MemoryStore.list_inside`) and on a disk (`DirectoryStore.Opens.list_inside`). So
  there is one item for each of them and no other (`Site.contentItems_itemizes`).
-/

namespace Pagewright

open Std

variable {key name raw t : Text} {p directory : Path} {files : List (Path × Text)}

/-! ## The item of a file -/

/-- What the header of a file says; one that cannot be read says nothing. -/
def headerFields (raw : Text) : Fields := ((Document.parse? raw).map Document.attributes).getD []

/-- What the item of a file has under a name. The text and the route come before what the header says. -/
def fieldOfFile (p : Path) (raw name : Text) : Option Json :=
  if name = "link".toList then some (.string (SitePath.contentLink p))
  else if name = "content".toList then some (.string (Text.trim (splitHeader raw).2))
  else Fields.get? name (headerFields raw)

/-- The value is the item of a file: an object with these fields, each once and in the order of the names. -/
def IsItemOf (file : Path × Text) (item : Json) : Prop :=
  ∃ fields : Fields, item = .object fields ∧ fields.Ascending ∧
    ∀ name, fields.get? name = fieldOfFile file.1 file.2 name

theorem attributes_parseLenient (raw : Text) : (Document.parseLenient raw).attributes = headerFields raw := by
  unfold Document.parseLenient headerFields
  cases Document.parse? raw <;> rfl

theorem get?_contentItem (p : Path) (raw name : Text) : (contentItem p raw).get? name = fieldOfFile p raw name := by
  rw [contentItem, Fields.get?_insert, Fields.get?_insert, Document.body_parseLenient, attributes_parseLenient,
    fieldOfFile]
  simp only [eq_comm]

theorem isItemOf_contentItem (file : Path × Text) : IsItemOf file (.object (contentItem file.1 file.2)) :=
  ⟨_, rfl, ((Document.ascending_parseLenient _).insert _ _).insert _ _, get?_contentItem file.1 file.2⟩

/-! ## The order of the items -/

/-- Has the item of a file the field? -/
def HasField (key : Text) (file : Path × Text) : Prop := (fieldOfFile file.1 file.2 key).isSome

/-- The field of the item of a file as it is shown. -/
def shownField (key : Text) (file : Path × Text) : Text :=
  ((fieldOfFile file.1 file.2 key).map Json.display).getD []

/-- The order by the field as it is shown, and by the paths where that is the same. -/
def byShownField (key : Text) (file file' : Path × Text) : Ordering :=
  (Text.compare (shownField key file) (shownField key file')).then (file.1.compare file'.1)

/-- Different files in the order of their items: by the field if all of them have it, else by the paths. -/
structure InItemOrder (key : Text) (files : List (Path × Text)) : Prop where
  distinct : files.Pairwise fun file file' => ¬ file.1.same file'.1
  byField : (∀ file ∈ files, HasField key file) → files.Pairwise fun file file' => byShownField key file file' = .lt
  byPath : ¬ (∀ file ∈ files, HasField key file) → files.Pairwise fun file file' => file.1.compare file'.1 = .lt

theorem sortText_contentItem (key : Text) (file : Path × Text) :
    sortText key (contentItem file.1 file.2) = shownField key file := by
  rw [sortText, get?_contentItem, shownField]

/-- Items of files in the order of their paths are put in the order of items. -/
theorem exists_sortContents (key : Text) (h : files.Pairwise fun file file' => file.1.compare file'.1 = .lt) :
    ∃ sorted : List (Path × Text), sorted.Perm files ∧ InItemOrder key sorted ∧
      sortContents key (files.map fun file => contentItem file.1 file.2) =
        sorted.map fun file => contentItem file.1 file.2 := by
  have hdistinct : files.Pairwise fun file file' => ¬ file.1.same file'.1 := h.imp Path.not_same_of_lt
  have hall : (files.map fun file => contentItem file.1 file.2).all (fun item => (item.get? key).isSome) ↔
      ∀ file ∈ files, HasField key file := by
    simp only [List.all_map, List.all_eq_true, Function.comp_apply, get?_contentItem, HasField]
  unfold sortContents
  by_cases hfield : ∀ file ∈ files, HasField key file
  · rw [if_pos (hall.2 hfield)]
    set sorted := files.mergeSort fun file file' => Text.compare (shownField key file) (shownField key file') != .gt
    have hperm : sorted.Perm files := List.mergeSort_perm _ _
    -- the sort is stable, so files with the same text stay in the order of their paths
    have hsorted : sorted.Pairwise fun file file' => (byShownField key file file').isLE := by
      have hshown : TransCmp fun file file' => Text.compare (shownField key file) (shownField key file') :=
        { eq_swap := OrientedCmp.eq_swap, isLE_trans := TransCmp.isLE_trans }
      have hpath : ReflCmp fun file file' : Path × Text => file.1.compare file'.1 := ⟨ReflCmp.compare_self⟩
      exact pairwise_mergeSort (h.imp fun hlt => by rw [hlt]; rfl)
    have hdistinct' : sorted.Pairwise fun file file' => ¬ file.1.same file'.1 :=
      (hperm.pairwise_iff fun hne hsame => hne (Path.same_comm.1 hsame)).2 hdistinct
    refine ⟨sorted, hperm, ⟨hdistinct', fun _ => ?_, fun hnot => ?_⟩, ?_⟩
    · -- different files are never equal in this order, since their paths differ
      refine (hsorted.and hdistinct').imp fun {file file'} hboth => ?_
      obtain ⟨hle, hne⟩ := hboth
      refine (Ordering.isLE_iff_eq_lt_or_eq_eq.1 hle).resolve_right fun heq => hne ?_
      exact Path.compare_eq_iff.1 (Ordering.then_eq_eq.1 heq).2
    · exact absurd (fun file hfile => hfield file (hperm.mem_iff.1 hfile)) hnot
    · refine (List.map_mergeSort fun file _ file' _ => ?_).symm
      rw [sortText_contentItem, sortText_contentItem]
  · rw [if_neg (fun hsome => hfield (hall.1 hsome))]
    exact ⟨files, .refl _, ⟨hdistinct, fun hsome => absurd hsome hfield, fun _ => h⟩, rfl⟩

/-! ## The items of listed files -/

namespace Site

variable {σ : Type} [Storage σ] {site : Site σ}

/-- A collection of the directory has one item for each of the given files, in their order, and no other item. -/
def Itemizes (site : Site σ) (directory : Path) (IsFile : Path → Text → Prop) : Prop :=
  ∃ files : List (Path × Text), (∀ p t, (p, t) ∈ files ↔ IsFile p t) ∧ InItemOrder site.settings.sortKey files ∧
    ∃ items, site.contentItems directory = .ok items ∧ List.Forall₂ IsItemOf files items

/-- Whatever the storage is: if files are listed in the order of their paths and can be read, there is one item for
each of them. -/
theorem itemizes_of_list (hlist : Storage.list site.store directory = .ok (files.map Prod.fst))
    (hread : ∀ file ∈ files, Storage.read site.store file.1 = .ok file.2)
    (h : files.Pairwise fun file file' => file.1.compare file'.1 = .lt) :
    site.Itemizes directory fun p t => (p, t) ∈ files := by
  obtain ⟨sorted, hperm, horder, hsort⟩ := exists_sortContents site.settings.sortKey h
  have hitems : (files.map Prod.fst).mapM (fun p => (site.read p).map (contentItem p)) =
      .ok (files.map fun file => contentItem file.1 file.2) := by
    rw [List.mapM_map]
    refine mapM_eq_pure fun file hfile => ?_
    have hfound : site.read file.1 = .ok file.2 := by
      rw [Site.read, hread file hfile]
      rfl
    rw [Function.comp_apply, hfound]
    rfl
  refine ⟨sorted, fun p t => hperm.mem_iff, horder,
    sorted.map fun file => .object (contentItem file.1 file.2), ?_, ?_⟩
  · rw [contentItems_of_list hlist, hitems, Except.map, hsort, List.map_map]
    rfl
  · rw [List.forall₂_map_right_iff, List.forall₂_same]
    exact fun file _ => isItemOf_contentItem file

end Site

/-! ## Files on a disk -/

namespace DirectoryStore

variable {s : DirectoryStore} {place : Place}

/-- The directory is at a place of the disk, and the files directly inside it can be read: they are texts, and have
names that can be written in a path. -/
structure Opens (s : DirectoryStore) (directory : Path) (place : Place) : Prop where
  keyed : s.disk.Keyed
  located : climbs directory = false
  found : s.disk.find (s.root.join directory) = .ok (place, .directory)
  readable : ∀ name content, s.disk.entry? (place ++ [name]) = some (.file content) →
    Path.IsName name ∧ Disk.Fits name ∧ content.isSome

variable (h : s.Opens directory place)
include h

/-- A file inside the directory is found under its name. -/
theorem Opens.read_eq (hfile : s.disk.entry? (place ++ [name]) = some (.file (some t))) :
    s.read (directory.joinText name) = .ok t := by
  obtain ⟨hname, hfits, -⟩ := h.readable name (some t) hfile
  obtain ⟨hordinary, hcomponents⟩ := hname.ordinary
  obtain ⟨hresolve, hdirectory⟩ := Disk.find_eq_ok_iff.1 h.found
  obtain ⟨-, hne, -⟩ := Disk.resolve_eq_ok_iff.1 hresolve
  have hjoin : s.root.join (directory.joinText name) = (s.root.join directory).join ⟨name⟩ :=
    Path.join_join hordinary.isAbsolute_eq s.root directory
  obtain ⟨hbelow, hends⟩ := hordinary.join hne
  have hextends : (s.root.join directory).Extends [name] ((s.root.join directory).join ⟨name⟩) := by
    rw [Path.Extends, hbelow, hcomponents]
    rfl
  have hfind : s.disk.find (s.root.join (directory.joinText name)) = .ok (place ++ [name], .file (some t)) := by
    rw [hjoin]
    refine (Disk.find_below_iff h.found hextends (by simpa using hname) (List.cons_ne_nil _ _) fun _ => ?_).2
      ⟨rfl, hfile, Or.inl (hends.2 hname.endsInName)⟩
    -- on the way there is the directory itself and nothing else
    refine ⟨by simpa using hfits, fun k hk hother => ?_⟩
    obtain rfl : k = [] := by
      rcases List.prefix_cons_iff.1 hk with rfl | ⟨r, rfl, hr⟩
      · rfl
      · exact absurd (by rw [List.prefix_nil.1 hr]) hother
    rwa [List.append_nil]
  have hlocated : s.locate (directory.joinText name) = .ok (s.root.join (directory.joinText name)) := by
    refine locate_eq_ok_iff.2 ⟨?_, rfl⟩
    have hdirectory := h.located
    rw [climbs] at hdirectory ⊢
    rw [hname.components_joinText, List.any_append, hdirectory]
    rfl
  rw [DirectoryStore.read, hlocated]
  simp only [bind, Except.bind, Disk.readText, hfind]
  rfl

/-- The files directly inside the directory are listed in the order of their paths, each once. -/
theorem Opens.list_inside : ∃ files : List (Path × Text), s.list directory = .ok (files.map Prod.fst) ∧
    (∀ p t, (p, t) ∈ files ↔
      ∃ name, p = directory.joinText name ∧ s.disk.entry? (place ++ [name]) = some (.file (some t))) ∧
    files.Pairwise fun file file' => file.1.compare file'.1 = .lt := by
  have hreadable : ∀ name ∈ s.disk.filesIn place, Path.IsName name ∧
      ∃ t, s.disk.entry? (place ++ [name]) = some (.file (some t)) := by
    intro name hname
    obtain ⟨content, hfile⟩ := h.keyed.mem_filesIn_iff.1 hname
    obtain ⟨hvalid, -, hsome⟩ := h.readable name content hfile
    obtain ⟨t, rfl⟩ := Option.isSome_iff_exists.1 hsome
    exact ⟨hvalid, t, hfile⟩
  let found := Storage.sortPaths ((s.disk.filesIn place).map directory.joinText)
  have hmem : ∀ p, p ∈ found ↔ ∃ name ∈ s.disk.filesIn place, directory.joinText name = p := fun p =>
    List.mem_mergeSort.trans List.mem_map
  have hlist : s.list directory = .ok found := by
    have hread : s.disk.readDirectory (s.root.join directory) = .ok (s.disk.children place) := by
      rw [Disk.readDirectory, h.found]
    have hlocated : s.locate directory = .ok (s.root.join directory) := locate_eq_ok_iff.2 ⟨h.located, rfl⟩
    rw [DirectoryStore.list, hlocated]
    simp only [bind, Except.bind, hread]
    exact congrArg (fun l => Except.ok (Storage.sortPaths l)) (Disk.map_filesIn s.disk _ directory).symm
  -- the names in a directory differ, and so do the paths that are made of them
  have hascending : found.Pairwise fun p q => p.compare q = .lt := by
    refine Storage.ascending_sortPaths (List.pairwise_map.2 ((h.keyed.nodup_filesIn place).imp_of_mem ?_))
    intro name name' hname hname' hne hsame
    have hcomponents := Path.components_eq_of_same hsame
    rw [(hreadable name hname).1.components_joinText, (hreadable name' hname').1.components_joinText] at hcomponents
    simp only [List.append_cancel_left_eq, List.cons.injEq, Path.Component.name.injEq, and_true] at hcomponents
    exact hne hcomponents
  refine ⟨found.map fun p => (p, (s.read p).toOption.getD []), ?_, fun p t => ?_, ?_⟩
  · rw [List.map_map, hlist]
    exact congrArg Except.ok (List.map_id' found).symm
  · rw [List.mem_map]
    constructor
    · rintro ⟨q, hq, heq⟩
      obtain ⟨name, hname, rfl⟩ := (hmem q).1 hq
      obtain ⟨-, u, hfile⟩ := hreadable name hname
      rw [h.read_eq hfile] at heq
      obtain ⟨rfl, rfl⟩ := Prod.mk.inj heq
      exact ⟨name, rfl, hfile⟩
    · rintro ⟨name, rfl, hfile⟩
      refine ⟨directory.joinText name, (hmem _).2 ⟨name, h.keyed.mem_filesIn_iff.2 ⟨_, hfile⟩, rfl⟩, ?_⟩
      rw [h.read_eq hfile]
      rfl
  · exact List.pairwise_map.2 hascending

end DirectoryStore

/-! ## The items of a directory -/

namespace Site

/-- A collection has one item for each file directly inside its directory, in memory and on a disk: an item with what
the header, the text and the route of the file say. The items are in the order of the field that the site puts contents
in order by, if all of them have it, else in that of the paths. -/
theorem contentItems_itemizes :
    (∀ (site : Site MemoryStore) (directory : Path), site.store.Ascending →
      (∃ p ∈ site.store.paths, directory.isPrefixOf p ∧ ¬ p.same directory) →
      site.Itemizes directory fun p t =>
        (p, t) ∈ site.store.files ∧ ∃ c ≠ Path.Component.root, p.components = directory.components ++ [c]) ∧
    ∀ (site : Site DirectoryStore) (directory : Path) (place : Place), site.store.Opens directory place →
      site.Itemizes directory fun p t =>
        ∃ name, p = directory.joinText name ∧ site.store.disk.entry? (place ++ [name]) = some (.file (some t)) := by
  constructor
  · intro site directory hascending hdirectory
    have hread : ∀ file ∈ site.store.files.filter (fun file => MemoryStore.isInside directory file.1),
        Storage.read site.store file.1 = .ok file.2 := fun file hfile =>
      MemoryStore.read_eq_ok_iff.2 (hascending.get?_of_mem (List.mem_of_mem_filter hfile))
    have hitems := itemizes_of_list (MemoryStore.list_inside hdirectory) hread
      ((List.pairwise_map.1 hascending).filter _)
    simpa only [List.mem_filter, MemoryStore.isInside_iff] using hitems
  · intro site directory place hopens
    obtain ⟨files, hlist, hfiles, hascending⟩ := hopens.list_inside
    have hread : ∀ file ∈ files, Storage.read site.store file.1 = .ok file.2 := by
      rintro ⟨p, t⟩ hfile
      obtain ⟨name, rfl, hentry⟩ := (hfiles p t).1 hfile
      exact hopens.read_eq hentry
    have hitems := itemizes_of_list hlist hread hascending
    simpa only [hfiles] using hitems

/-! ### Posts -/

/-- Posts of two days, one of them with a route of its own, and a draft that is no post. -/
def postFiles : List (Path × Text) :=
  [(⟨"content/posts/a.md".toList⟩, "---\ndate: 2024-03-01\nlink: /elsewhere\n---\n\nThird\n".toList),
    (⟨"content/posts/b.md".toList⟩, "---\ndate: 2024-02-01\n---\nFirst".toList),
    (⟨"content/posts/c.md".toList⟩, "---\ndate: 2024-02-01\n---\nSecond".toList),
    (⟨"content/posts/drafts/d.md".toList⟩, "Draft".toList)]

/-- A site with the posts in memory. -/
def postsSite : Site MemoryStore := .ofStore ⟨postFiles⟩ .default

/-- A site with one post on a disk, whose header is no YAML. -/
def postsDiskSite : Site DirectoryStore :=
  .ofStore ⟨⟨"/site".toList⟩, ⟨[(["site".toList], .directory), (["site".toList, "content".toList], .directory),
    (["site".toList, "content".toList, "a.md".toList], .file (some "---\n: [\n---\nBroken".toList))], []⟩⟩ .default

theorem contentItems_itemizes_posts :
    postsSite.store.Ascending ∧
      (postsSite.Itemizes ⟨"content/posts/".toList⟩ fun p t => (p, t) ∈ postFiles ∧
        ∃ c ≠ Path.Component.root, p.components = (Path.mk "content/posts/".toList).components ++ [c]) ∧
      postsDiskSite.store.Opens ⟨"content".toList⟩ ["site".toList, "content".toList] ∧
      postsDiskSite.Itemizes ⟨"content".toList⟩ fun p t => ∃ name, p = (Path.mk "content".toList).joinText name ∧
        postsDiskSite.store.disk.entry? (["site".toList, "content".toList] ++ [name]) = some (.file (some t)) := by
  have hascending : postsSite.store.Ascending := by
    unfold MemoryStore.Ascending
    decide +kernel
  have hkeyed : postsDiskSite.store.disk.Keyed := by
    unfold Disk.Keyed
    decide +kernel
  have hopens : postsDiskSite.store.Opens ⟨"content".toList⟩ ["site".toList, "content".toList] := by
    refine ⟨hkeyed, by decide +kernel, by decide +kernel, fun name content hfile => ?_⟩
    have hchild : (name, .file content) ∈ [("a.md".toList, DiskEntry.file (some "---\n: [\n---\nBroken".toList))] :=
      hkeyed.mem_children_iff.2 hfile
    obtain ⟨rfl, hcontent⟩ := Prod.mk.inj (List.mem_singleton.1 hchild)
    obtain rfl := DiskEntry.file.inj hcontent
    exact ⟨⟨by decide, by decide, by decide⟩, by decide +kernel, rfl⟩
  exact ⟨hascending, contentItems_itemizes.1 postsSite _ hascending (by decide +kernel), hopens,
    contentItems_itemizes.2 postsDiskSite _ _ hopens⟩

end Site

end Pagewright
