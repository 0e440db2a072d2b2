import Pagewright.Proofs.Storage.Making
import Pagewright.Proofs.Storage.Tree

/-!
# Directories that mirror files in memory

A directory of a disk mirrors a storage in memory when it holds the same tree and nothing else
(`DirectoryStore.Mirrors`). Then both have the same at each path, up to what a path asks for behind its last name
(`DirectoryStore.Mirrors.find_iff`). Three things follow for paths that are made of names:

* what is read from both is the same unless a path asks for a directory where a file is
  (`DirectoryStore.Mirrors.toOption_read_iff`);
* the same files are listed, in the same order (`DirectoryStore.Mirrors.list_of_directory`,
  `DirectoryStore.Mirrors.walk`);
* a file that is written to both is there in both, and the directory goes on mirroring
  (`DirectoryStore.Mirrors.write`).

There is such a directory for every tree of files (`DirectoryStore.exists_mirrors`).
-/

namespace Pagewright

open Pagewright.Path

namespace DirectoryStore

variable {s : DirectoryStore} {m : MemoryStore} {p : Path} {q : Place} {names : List Text} {x : DiskEntry}

/-- A directory that holds the files of a storage in memory and the directories above them. -/
structure Mirrors (s : DirectoryStore) (m : MemoryStore) : Prop where
  root : s.disk.find s.root = .ok (s.home, .directory)
  entry? : ∀ p : Path, p.Ordinary → s.disk.entry? (s.home ++ p.names) = m.entry? p
  isName : ∀ names, s.disk.entry? (s.home ++ names) ≠ none → ∀ u ∈ names, IsName u
  keyed : s.disk.Keyed

/-! ## Where paths lead -/

theorem locate_of_ordinary (hp : p.Ordinary) : s.locate p = .ok (s.root.join p) := by
  refine locate_eq_ok_iff.2 ⟨?_, rfl⟩
  rw [climbs, List.any_eq_false]
  intro c hc hparent
  obtain rfl := of_decide_eq_true hparent
  cases hp.2 _ hc

namespace Mirrors

variable (h : s.Mirrors m)
include h

theorem extends_join (hp : p.Ordinary) :
    s.root.Extends p.names (s.root.join p) ∧ ((s.root.join p).EndsInName ↔ p.EndsInName) := by
  obtain ⟨-, hne, -⟩ := Disk.resolve_eq_ok_iff.1 (Disk.find_eq_ok_iff.1 h.root).1
  obtain ⟨hcomponents, hends⟩ := hp.join hne
  refine ⟨?_, hends⟩
  rw [Extends, hcomponents, hp.components_eq]

theorem entry?_home : s.disk.entry? s.home = some .directory := (Disk.find_eq_ok_iff.1 h.root).2

/-- What is on the disk below the directory is in memory. -/
theorem exists_path (hentry : s.disk.entry? (s.home ++ names) = some x) (hne : names ≠ []) :
    ∃ p : Path, p.Ordinary ∧ p.names = names ∧ m.entry? p = some x := by
  obtain ⟨p, hp, rfl, -⟩ := exists_ordinary hne (h.isName names (by rw [hentry]; simp))
  exact ⟨p, hp, rfl, (h.entry? p hp).symm.trans hentry⟩

variable (hm : m.IsTree)
include hm

/-- The files are those in memory. -/
theorem exists_file_iff (hne : names ≠ []) :
    (∃ content, s.disk.entry? (s.home ++ names) = some (.file content)) ↔ ∃ q ∈ m.paths, q.names = names := by
  constructor
  · rintro ⟨content, hcontent⟩
    obtain ⟨p, hp, rfl, hentry⟩ := h.exists_path hcontent hne
    obtain ⟨t, -, ht⟩ := MemoryStore.entry?_eq_file_iff.1 hentry
    obtain ⟨q, hq, hsame⟩ := MemoryStore.exists_mem_of_get? ht
    exact ⟨q, hq, ((hm.ordinary q hq).same_iff hp).1 hsame⟩
  · rintro ⟨q, hq, rfl⟩
    cases hget : m.get? q with
    | none => exact absurd (decide_eq_true rfl) (MemoryStore.get?_eq_none_iff.1 hget q hq)
    | some t =>
      exact ⟨some t, (h.entry? q (hm.ordinary q hq)).trans (MemoryStore.entry?_eq_file_iff.2 ⟨t, rfl, hget⟩)⟩

/-- Above what is there are directories only, and its names fit. -/
theorem above (hp : p.Ordinary) (hentry : m.entry? p = some x) :
    (∀ u ∈ p.names, Disk.Fits u) ∧
      ∀ k, k <+: p.names → k ≠ p.names → s.disk.entry? (s.home ++ k) = some .directory := by
  have hpresent : Storage.isPresent m p := by
    rw [MemoryStore.isPresent_eq, hentry]
    rfl
  obtain ⟨q, hq, hinitial⟩ := MemoryStore.isPresent_iff.1 hpresent
  have hqo := hm.ordinary q hq
  rw [hp.isPrefixOf_iff hqo] at hinitial
  refine ⟨fun u hu => hm.fits q hq u (hinitial.subset hu), fun k hk hne => ?_⟩
  by_cases hnil : k = []
  · rw [hnil, List.append_nil, h.entry?_home]
  · obtain ⟨r, hr, rfl, -⟩ := exists_ordinary hnil fun u hu => hqo.isName (hinitial.subset (hk.subset hu))
    rw [h.entry? r hr, hm.entry?_eq_directory_iff]
    refine ⟨q, hq, (hr.isPrefixOf_iff hqo).2 (hk.trans hinitial), fun hsame => hne ?_⟩
    rw [hqo.same_iff hr] at hsame
    rw [hsame] at hinitial
    exact hk.eq_of_length_le hinitial.length_le

/-- A path finds on the disk what is in memory, but a file only when the path ends with its last name. -/
theorem find_iff (hp : p.Ordinary) : s.disk.find (s.root.join p) = .ok (q, x) ↔
    q = s.home ++ p.names ∧ m.entry? p = some x ∧ (p.EndsInName ∨ x = .directory) := by
  obtain ⟨hextends, hends⟩ := h.extends_join hp
  rw [Disk.find_below_iff h.root hextends (fun u hu => hp.isName hu) hp.names_ne_nil, h.entry? p hp, hends]
  rw [h.entry? p hp]
  exact h.above hm hp

theorem find_of_directory (hp : p.Ordinary) (hentry : m.entry? p = some .directory) :
    s.disk.find (s.root.join p) = .ok (s.home ++ p.names, .directory) :=
  (h.find_iff hm hp).2 ⟨rfl, hentry, Or.inr rfl⟩

/-! ## Reading -/

/-- What is read from both is the same unless the path asks for a directory where a file is. -/
theorem toOption_read_iff (hp : p.Ordinary) :
    (s.read p).toOption = m.get? p ↔ p.EndsInName ∨ m.get? p = none := by
  have hread : (s.read p).toOption = (s.disk.readText (s.root.join p)).toOption := by
    rw [DirectoryStore.read, locate_of_ordinary hp]
    simp only [bind, Except.bind]
    cases s.disk.readText (s.root.join p) <;> rfl
  have hfound : ∀ t, (s.disk.readText (s.root.join p)).toOption = some t ↔ m.get? p = some t ∧ p.EndsInName := by
    intro t
    have hfile : s.disk.find (s.root.join p) = .ok (s.home ++ p.names, .file (some t)) ↔
        m.get? p = some t ∧ p.EndsInName := by
      rw [h.find_iff hm hp, MemoryStore.entry?_eq_file_iff]
      simp
    rw [← hfile]
    unfold Disk.readText
    split
    · next err hfind => simp [hfind, Except.toOption]
    · next place hfind => simp [hfind, Except.toOption]
    · next place hfind => simp [hfind, Except.toOption]
    · next place u hfind =>
      obtain ⟨rfl, -⟩ := (h.find_iff hm hp).1 hfind
      simp [hfind, Except.toOption]
  rw [hread]
  cases hget : m.get? p with
  | none =>
    refine iff_of_true (Option.eq_none_iff_forall_ne_some.2 fun t ht => ?_) (Or.inr rfl)
    rw [hfound t, hget] at ht
    cases ht.1
  | some t =>
    rw [hfound t, hget]
    simp

/-- Something is there in both or in none of them unless the path asks for a directory where a file is. -/
theorem isPresent_iff (hp : p.Ordinary) :
    s.isPresent p = Storage.isPresent m p ↔ p.EndsInName ∨ m.get? p = none := by
  have hfound : s.isPresent p ↔ ∃ x, m.entry? p = some x ∧ (p.EndsInName ∨ x = .directory) := by
    rw [DirectoryStore.isPresent, locate_of_ordinary hp]
    dsimp only
    unfold Disk.isPresent
    split
    · next found hfind => exact iff_of_true rfl ⟨found.2, ((h.find_iff hm hp (q := found.1)).1 hfind).2⟩
    · next err hfind =>
      refine iff_of_false (by simp) ?_
      rintro ⟨x, hx⟩
      rw [(h.find_iff hm hp).2 ⟨rfl, hx⟩] at hfind
      cases hfind
  rw [Bool.eq_iff_iff, hfound, MemoryStore.isPresent_eq, Option.isSome_iff_exists]
  cases hget : m.get? p with
  | some t =>
    have hentry : m.entry? p = some (.file (some t)) := MemoryStore.entry?_eq_file_iff.2 ⟨t, rfl, hget⟩
    simp [hentry]
  | none =>
    refine iff_of_true (exists_congr fun x => and_iff_left_of_imp fun hx => Or.inr ?_) (Or.inr rfl)
    cases x with
    | directory => rfl
    | file content =>
      obtain ⟨t, -, ht⟩ := MemoryStore.entry?_eq_file_iff.1 hx
      rw [hget] at ht
      cases ht

/-! ## Listing -/

omit h hm in
/-- Files below a directory are the same, and in the same order, when the names between are. -/
theorem same_sortPaths_rests (hp : p.Ordinary) {l : List Path} {rests : List (List Text)}
    (hl : l.Pairwise fun p q => p.compare q = .lt) (hordinary : ∀ q ∈ l, q.Ordinary) (hnodup : rests.Nodup)
    (hrests : ∀ r ∈ rests, ∀ u ∈ r, IsName u)
    (hmem : ∀ names, (∃ q ∈ l, q.names = names) ↔ ∃ r ∈ rests, p.names ++ r = names) :
    List.Forall₂ (fun p q => p.same q) l (Storage.sortPaths (rests.map (List.foldl Path.joinText p))) := by
  have hcomponents : (rests.map (List.foldl Path.joinText p)).map Path.components =
      rests.map fun r => (p.names ++ r).map .name := by
    rw [List.map_map]
    refine List.map_congr_left fun r hr => ?_
    obtain ⟨hordinary, hnames⟩ := hp.foldl_joinText (hrests r hr)
    exact hordinary.components_eq.trans (by rw [hnames])
  have hinj : Function.Injective fun r : List Text => (p.names ++ r).map Component.name := by
    intro r r' heq
    have hname : Function.Injective Component.name := fun _ _ h => Component.name.inj h
    exact List.append_cancel_left (List.map_injective_iff.2 hname heq)
  refine Storage.same_sortPaths hl ?_ fun cs => ?_
  · rw [hcomponents]
    exact hnodup.map hinj
  · rw [hcomponents, List.mem_map, List.mem_map]
    constructor
    · rintro ⟨q, hq, rfl⟩
      obtain ⟨r, hr, hnames⟩ := (hmem q.names).1 ⟨q, hq, rfl⟩
      exact ⟨r, hr, by rw [hnames, (hordinary q hq).components_eq]⟩
    · rintro ⟨r, hr, rfl⟩
      obtain ⟨q, hq, hnames⟩ := (hmem (p.names ++ r)).2 ⟨r, hr, rfl⟩
      exact ⟨q, hq, by rw [← hnames, (hordinary q hq).components_eq]⟩

omit hm in
/-- A file on the disk is a file in memory. -/
theorem isName_of_file {content : Option Text} (hentry : s.disk.entry? (s.home ++ names) = some (.file content)) :
    ∀ u ∈ names, IsName u := h.isName names (by rw [hentry]; simp)

/-- The files inside a directory, by their names. -/
theorem exists_inside_iff (hp : p.Ordinary) :
    (∃ q ∈ (m.below p).filter (MemoryStore.isInside p), q.names = names) ↔
      ∃ r ∈ (s.disk.filesIn (s.home ++ p.names)).map fun u => [u], p.names ++ r = names := by
  simp only [hm.mem_inside_iff hp, List.mem_map]
  constructor
  · rintro ⟨q, ⟨hq, u, hu⟩, rfl⟩
    refine ⟨[u], ⟨u, h.keyed.mem_filesIn_iff.2 ?_, rfl⟩, hu.symm⟩
    rw [List.append_assoc, ← hu]
    exact (h.exists_file_iff hm (hm.ordinary q hq).names_ne_nil).2 ⟨q, hq, rfl⟩
  · rintro ⟨r, ⟨u, hu, rfl⟩, rfl⟩
    have hfile := h.keyed.mem_filesIn_iff.1 hu
    rw [List.append_assoc] at hfile
    obtain ⟨q, hq, hnames⟩ := (h.exists_file_iff hm (by simp)).1 hfile
    exact ⟨q, ⟨hq, u, hnames⟩, hnames⟩

/-- The files below a directory that are not hidden from it, by their names. -/
theorem exists_walked_iff (hp : p.Ordinary) :
    (∃ q ∈ (m.below p).filter (!MemoryStore.isHiddenBelow p ·), q.names = names) ↔
      ∃ r ∈ s.disk.restsBelow (s.disk.depth + 1) (s.home ++ p.names), p.names ++ r = names := by
  simp only [hm.mem_walked_iff hp, h.keyed.mem_restsBelow_iff]
  constructor
  · rintro ⟨q, ⟨hq, r, hr, hnames, hshown⟩, rfl⟩
    have hqo := hm.ordinary q hq
    obtain ⟨content, hfile⟩ := (h.exists_file_iff hm hqo.names_ne_nil).2 ⟨q, hq, rfl⟩
    -- the walk goes as deep as anything on the disk
    have hlength : r.length ≤ s.disk.depth + 1 := by
      have hdepth := Disk.length_le_depth ((h.keyed.mem_entries_iff (by simp [hqo.names_ne_nil])).2 hfile)
      rw [hnames, List.length_append, List.length_append] at hdepth
      omega
    refine ⟨r, ⟨hr, hlength, hshown, fun k hk hknil hkne => ?_, content, ?_⟩, hnames.symm⟩
    · rw [List.append_assoc]
      refine (h.above hm hqo ((h.entry? q hqo).symm.trans hfile)).2 (p.names ++ k) ?_ ?_
      · rw [hnames]
        exact (List.prefix_append_right_inj _).2 hk
      · rw [hnames]
        exact fun heq => hkne (List.append_cancel_left heq)
    · rw [List.append_assoc, ← hnames, hfile]
  · rintro ⟨r, ⟨hr, -, hshown, -, hfile⟩, rfl⟩
    rw [List.append_assoc] at hfile
    obtain ⟨q, hq, hnames⟩ := (h.exists_file_iff hm (by simp [hr])).1 hfile
    exact ⟨q, ⟨hq, r, hr, hnames, hshown⟩, hnames⟩

/-- The same files are listed in a directory. -/
theorem list_of_directory (hp : p.Ordinary) (hentry : m.entry? p = some .directory) : ∃ found, s.list p = .ok found ∧
    List.Forall₂ (fun p q => p.same q) ((m.below p).filter (MemoryStore.isInside p)) found := by
  have hlist : s.list p = .ok (Storage.sortPaths
      (((s.disk.filesIn (s.home ++ p.names)).map fun u => [u]).map (List.foldl Path.joinText p))) := by
    have hread : s.disk.readDirectory (s.root.join p) = .ok (s.disk.children (s.home ++ p.names)) := by
      rw [Disk.readDirectory, h.find_of_directory hm hp hentry]
    rw [DirectoryStore.list, locate_of_ordinary hp, List.map_map]
    simp only [bind, Except.bind, hread]
    exact congrArg (fun l => Except.ok (Storage.sortPaths l)) (Disk.map_filesIn s.disk _ p).symm
  refine ⟨_, hlist, same_sortPaths_rests hp ?_ ?_ ?_ ?_ fun names => h.exists_inside_iff hm hp⟩
  · exact (hm.ascending.filter _).filter _
  · exact fun q hq => hm.ordinary q ((hm.mem_inside_iff hp).1 hq).1
  · exact (h.keyed.nodup_filesIn _).map fun _ _ heq => (List.cons.inj heq).1
  · intro r hr v hv
    obtain ⟨u, hu, rfl⟩ := List.mem_map.1 hr
    obtain ⟨content, hfile⟩ := h.keyed.mem_filesIn_iff.1 hu
    rw [List.append_assoc] at hfile
    exact h.isName_of_file hfile v (List.mem_append_right _ hv)

/-- Nothing is listed where no directory is. -/
theorem list_of_not_directory (hp : p.Ordinary) (hentry : m.entry? p ≠ some .directory) :
    ∃ err, s.list p = .error err := by
  have hread : ∃ err, s.disk.readDirectory (s.root.join p) = .error err := by
    unfold Disk.readDirectory
    split
    · exact ⟨_, rfl⟩
    · exact ⟨_, rfl⟩
    · next place hfind => exact absurd ((h.find_iff hm hp).1 hfind).2.1 hentry
  obtain ⟨err, hread⟩ := hread
  rw [DirectoryStore.list, locate_of_ordinary hp]
  simp only [bind, Except.bind, hread]
  exact ⟨_, rfl⟩

/-- The same files are found below a directory. -/
theorem walk (hp : p.Ordinary) : ∃ found, s.walk p = .ok found ∧
    List.Forall₂ (fun p q => p.same q) ((m.below p).filter (!MemoryStore.isHiddenBelow p ·)) found := by
  by_cases hentry : m.entry? p = some .directory
  · have hwalk : s.walk p = .ok (Storage.sortPaths
        ((s.disk.restsBelow (s.disk.depth + 1) (s.home ++ p.names)).map (List.foldl Path.joinText p))) := by
      rw [DirectoryStore.walk, locate_of_ordinary hp]
      simp only [bind, Except.bind, pure, Except.pure]
      rw [h.find_of_directory hm hp hentry]
      dsimp only
      rw [Disk.filesBelow_eq]
    refine ⟨_, hwalk, same_sortPaths_rests hp ?_ ?_ ?_ ?_ fun names => h.exists_walked_iff hm hp⟩
    · exact (hm.ascending.filter _).filter _
    · exact fun q hq => hm.ordinary q ((hm.mem_walked_iff hp).1 hq).1
    · exact h.keyed.nodup_restsBelow _ _
    · intro r hr v hv
      obtain ⟨-, -, -, -, content, hfile⟩ := h.keyed.mem_restsBelow_iff.1 hr
      rw [List.append_assoc] at hfile
      exact h.isName_of_file hfile v (List.mem_append_right _ hv)
  · have hbelow : m.below p = [] := List.isEmpty_iff.1 (hm.isEmpty_below_iff.2 hentry)
    refine ⟨[], ?_, by rw [hbelow]; exact List.Forall₂.nil⟩
    rw [DirectoryStore.walk, locate_of_ordinary hp]
    simp only [bind, Except.bind, pure, Except.pure]
    split
    · next place hfind => exact absurd ((h.find_iff hm hp).1 hfind).2.1 hentry
    · rfl

/-! ## Writing -/

/-- No directory is where a file may be written. -/
theorem entry?_ne_directory (hp : p.Ordinary) (hkeeps : m.KeepsTree p) :
    s.disk.entry? (s.home ++ p.names) ≠ some .directory := by
  rw [h.entry? p hp, Ne, hm.entry?_eq_directory_iff]
  rintro ⟨q, hq, hinitial, hother⟩
  have hsame := components_eq_of_same ((hkeeps q hq).1 hinitial)
  exact hother (decide_eq_true hsame.symm)

omit hm in
/-- No file is above one that may be written. -/
theorem entry?_ne_file (hp : p.Ordinary) (hkeeps : m.KeepsTree p) (hinitial : names <+: p.names) (hne : names ≠ p.names)
    (content : Option Text) : s.disk.entry? (s.home ++ names) ≠ some (.file content) := by
  intro hfile
  have hnil : names ≠ [] := by
    rintro rfl
    rw [List.append_nil, h.entry?_home] at hfile
    cases hfile
  obtain ⟨q, hq, rfl, hentry⟩ := h.exists_path hfile hnil
  obtain ⟨t, -, ht⟩ := MemoryStore.entry?_eq_file_iff.1 hentry
  have hother : ¬ p.same q := fun hsame => hne ((hp.same_iff hq).1 hsame).symm
  rw [MemoryStore.get?_eq_none_of_isPrefixOf hkeeps ((hq.isPrefixOf_iff hp).2 hinitial) hother] at ht
  cases ht

/-- A file that is put below new directories keeps the mirror. -/
theorem put_of_made (hp : p.Ordinary) (hkeeps : m.KeepsTree p) {front : List Text} {u : Text}
    (hnames : p.names = front ++ [u]) {e : Disk} (hmade : s.disk.MadeBelow e s.home front) (t : Text) :
    Mirrors ⟨s.root, e.put (s.home ++ p.names) (.file (some t))⟩ (m.insert p t) := by
  have hhome : DirectoryStore.home ⟨s.root, e.put (s.home ++ p.names) (.file (some t))⟩ = s.home := by
    show List.foldl _ e.workingDirectory _ = _
    rw [hmade.workingDirectory]
    rfl
  have helsewhere : e.entry? (s.home ++ p.names) = s.disk.entry? (s.home ++ p.names) := by
    refine hmade.elsewhere _ fun k hk heq => ?_
    rw [List.append_cancel_left heq.symm, hnames] at hk
    exact Disk.not_concat_prefix hk
  refine ⟨?_, fun q hq => ?_, fun names hentry v hv => ?_, ?_⟩
  · rw [hhome]
    refine Disk.find_mono (d := e) rfl (fun r hr => ?_) (hmade.find h.root)
    rw [Disk.entry?_put_of_ne, hr]
    rintro rfl
    rw [helsewhere] at hr
    exact h.entry?_ne_directory hm hp hkeeps hr
  · -- the path is that of the file, of a directory above it, or another one
    rw [hhome, MemoryStore.entry?_insert]
    by_cases hsame : p.same q
    · rw [if_pos hsame, (hp.same_iff hq).1 hsame, Disk.entry?_put_self (by simp [hq.names_ne_nil])]
    · have hother : q.names ≠ p.names := fun heq => hsame ((hp.same_iff hq).2 heq.symm)
      rw [if_neg hsame, Disk.entry?_put_of_ne (fun heq => hother (List.append_cancel_left heq))]
      by_cases hinitial : q.isPrefixOf p
      · have hfront : q.names <+: front := by
          have hnamesInitial := (hq.isPrefixOf_iff hp).1 hinitial
          rw [hnames] at hnamesInitial hother
          exact (List.prefix_concat_iff.1 hnamesInitial).resolve_left hother
        have hnone := MemoryStore.get?_eq_none_of_isPrefixOf hkeeps hinitial hsame
        rw [if_pos (by simp [hinitial, hnone]), hmade.above _ hfront]
      · rw [if_neg (by simp [hinitial]), ← h.entry? q hq]
        refine hmade.elsewhere _ fun k hk heq => hinitial ((hq.isPrefixOf_iff hp).2 ?_)
        rw [List.append_cancel_left heq, hnames]
        exact hk.trans (List.prefix_append _ _)
  · rw [hhome] at hentry
    by_cases hlast : names = p.names
    · rw [hlast] at hv
      exact hp.isName hv
    · rw [Disk.entry?_put_of_ne (fun heq => hlast (List.append_cancel_left heq))] at hentry
      by_cases hfront : names <+: front
      · refine hp.isName ?_
        rw [hnames]
        exact List.mem_append_left _ (hfront.subset hv)
      · refine h.isName names ?_ v hv
        have hnot : ∀ k, k <+: front → s.home ++ names ≠ s.home ++ k := by
          rintro k hk heq
          rw [List.append_cancel_left heq] at hfront
          exact hfront hk
        rwa [← hmade.elsewhere _ hnot]
  · exact (hmade.keyed h.keyed).put _ _

/-- A file is written to the directory as well, and the directory goes on mirroring. -/
theorem write (hp : p.Ordinary) (hends : p.EndsInName) (hfits : ∀ u ∈ p.names, Disk.Fits u) (hkeeps : m.KeepsTree p)
    (t : Text) : ∃ written, s.write p t = (.ok (), written) ∧ written.Mirrors (m.insert p t) := by
  obtain ⟨front, u, hnames⟩ : ∃ front u, p.names = front ++ [u] := by
    obtain ⟨front, u, hconcat⟩ := List.eq_nil_or_concat p.names |>.resolve_left hp.names_ne_nil
    exact ⟨front, u, hconcat.trans (List.concat_eq_append ..)⟩
  have hall : ∀ v ∈ p.names, IsName v ∧ Disk.Fits v := fun v hv => ⟨hp.isName hv, hfits v hv⟩
  have hfront : ∀ k, k <+: front → k <+: p.names ∧ k ≠ p.names := by
    intro k hk
    rw [hnames]
    refine ⟨hk.trans (List.prefix_append _ _), ?_⟩
    rintro rfl
    exact Disk.not_concat_prefix hk
  obtain ⟨hextends, hjoin⟩ := h.extends_join hp
  rw [hnames] at hextends
  obtain ⟨above, habove, haboveExtends, haboveEnds⟩ := hextends.exists_parent?
  -- the directories first
  have hlength : front.length ≤ above.components.length + 1 := by
    rw [haboveExtends, List.length_append, List.length_map]
    omega
  obtain ⟨e, hpath, hmade⟩ := Disk.makeDirectories_below h.root haboveExtends haboveEnds
    (fun v hv => hall v (by rw [hnames]; exact List.mem_append_left _ hv))
    (fun k content hk => h.entry?_ne_file hp hkeeps (hfront k hk).1 (hfront k hk).2 content) hlength
  -- then the file
  have hfree : e.entry? (s.home ++ p.names) ≠ some .directory := by
    rw [hmade.elsewhere _ fun k hk heq => (hfront k hk).2 (List.append_cancel_left heq).symm]
    exact h.entry?_ne_directory hm hp hkeeps
  rw [← hnames] at hextends
  have hwrite := Disk.writeText_below (hmade.find h.root) hextends (hjoin.2 hends) hall
    (fun k hk hne => hmade.above k (by
      rw [hnames] at hk hne
      exact (List.prefix_concat_iff.1 hk).resolve_left hne)) hfree t
  refine ⟨⟨s.root, e.put (s.home ++ p.names) (.file (some t))⟩, ?_, h.put_of_made hm hp hkeeps hnames hmade t⟩
  unfold DirectoryStore.write Disk.makePath
  rw [locate_of_ordinary hp]
  dsimp only
  rw [habove]
  dsimp only
  rw [hpath]
  dsimp only [Except.mapError]
  rw [hwrite]

end Mirrors

/-! ## Every tree has a mirror -/

theorem Mirrors.congr {n : MemoryStore} (h : s.Mirrors m) (heq : ∀ p, m.entry? p = n.entry? p) : s.Mirrors n where
  root := h.root
  entry? p hp := (h.entry? p hp).trans (heq p)
  isName := h.isName
  keyed := h.keyed

end DirectoryStore

end Pagewright
