import Pagewright.Proofs.Storage.Mirror
import Pagewright.Proofs.Storage.Spelling
import Pagewright.Site.Target

/-!
# Routes of documents

A document is written into the directory of its route, which its file spells without the extension; the page `index`
of a directory has the route of that directory. Three things live here:

* the files of a site on a disk where names are names (`Disk.WellFormed`, `Disk.WellFormed.exists_names_of_mem_walk`);
* where a document is written to, told by the names of its file (`Site.Job.target_eq`);
* so two documents have the same target if and only if they clash (`Site.Job.Clash`, `Site.same_target_iff_clash`).
-/

namespace Pagewright

open Pagewright.Path

/-! ## Files of a site -/

namespace Path

instance (s : Text) : Decidable (IsName s) :=
  decidable_of_iff (isFiller s = false ∧ s ≠ ['.', '.'] ∧ '/' ∉ s)
    ⟨fun h => ⟨h.1, h.2.1, h.2.2⟩, fun h => ⟨h.counts, h.ne_parent, h.slash_notMem⟩⟩

end Path

namespace Disk

variable {d : Disk} {root p : Path} {found : List Path} {l : List Text}

/-- A disk with one entry for each place, which is made of names. -/
structure WellFormed (d : Disk) : Prop where
  keyed : d.Keyed
  isName : ∀ e ∈ d.entries, ∀ s ∈ e.1, IsName s

instance (d : Disk) : Decidable d.WellFormed :=
  decidable_of_iff ((d.entries.map Prod.fst).Nodup ∧ ∀ e ∈ d.entries, ∀ s ∈ e.1, IsName s)
    ⟨fun h => ⟨h.1, h.2⟩, fun h => ⟨h.keyed, h.isName⟩⟩

/-- A file that is found below a directory has the names of the directory in front, and a visible name. -/
theorem WellFormed.exists_names_of_mem_walk (hd : d.WellFormed) (hl : ∀ s ∈ l, IsName s) (hne : l ≠ [])
    (hwalk : DirectoryStore.walk ⟨root, d⟩ (ofNames l) = .ok found) (hp : p ∈ found) :
    ∃ front s, p = ofNames (l ++ (front ++ [s])) ∧ (∀ u ∈ front ++ [s], IsName u) ∧ s.head? ≠ some '.' := by
  rw [DirectoryStore.walk, DirectoryStore.locate_of_ordinary (ordinary_ofNames hne hl)] at hwalk
  simp only [bind, Except.bind, pure, Except.pure] at hwalk
  split at hwalk
  · next place hfind =>
    rw [Except.ok.injEq] at hwalk
    subst hwalk
    rw [filesBelow_eq] at hp
    obtain ⟨rest, hrest, rfl⟩ := List.mem_map.1 (List.mem_mergeSort.1 hp)
    obtain ⟨hrestne, -, hvisible, -, content, hfile⟩ := hd.keyed.mem_restsBelow_iff.1 hrest
    have hnames : ∀ u ∈ rest, IsName u := by
      intro u hu
      have hmem := (hd.keyed.mem_entries_iff (by simp [hrestne])).2 hfile
      exact hd.isName _ hmem u (List.mem_append_right _ hu)
    obtain ⟨front, s, rfl⟩ : ∃ front s, rest = front ++ [s] := by
      rcases List.eq_nil_or_concat rest with hnil | ⟨front, s, hconcat⟩
      · exact absurd hnil hrestne
      · exact ⟨front, s, hconcat.trans (List.concat_eq_append ..)⟩
    -- hidden files are left out when the site is walked
    refine ⟨front, s, foldl_joinText_ofNames hne hl hnames, hnames, ?_⟩
    simpa [Storage.isHidden] using hvisible s (by simp)
  · rw [Except.ok.injEq] at hwalk
    subst hwalk
    cases hp

end Disk

namespace Site

/-! ## Routes -/

namespace Job

/-- The names of the file of a document behind the directory of the pages or of the contents. -/
def names (job : Job) : List Text := job.source.names.drop 1

/-- The directory of the file of a document. -/
def directory (job : Job) : List Text := job.names.dropLast

/-- The name of the file of a document. -/
def name (job : Job) : Text := job.names.getLast?.getD []

/-- The name without its extension. -/
def stem (job : Job) : Text := (splitName job.name).1

/-- Is a document the page of its directory? -/
def isIndex (job : Job) : Bool := !job.isContent && job.stem = "index".toList

/-- The route of a document. -/
def route (job : Job) : List Text := if job.isIndex then job.directory else job.directory ++ [job.stem]

/-- The name of the file that is written. The page of a directory keeps its name. -/
def fileName (job : Job) : Text := if job.isIndex then job.name else indexName

/-- Two documents with one route and one name there. -/
def Clash (a b : Job) : Prop := a.route = b.route ∧ a.fileName = b.fileName

instance (a b : Job) : Decidable (a.Clash b) := inferInstanceAs (Decidable (_ ∧ _))

end Job

variable {d : Disk} {root : Path} {js : List Job} {job a b : Job} {front : List Text} {stem extension : Text}

/-- The names of a file with an extension that stands for itself. -/
structure NamesFile (front : List Text) (stem extension : Text) : Prop where
  isName : ∀ u ∈ front ++ [stem ++ '.' :: extension], IsName u
  stem_ne : stem ≠ []
  visible : stem.head? ≠ some '.'
  dot_notMem : '.' ∉ extension

namespace NamesFile

variable (h : NamesFile front stem extension)
include h

theorem isName_stem : ∀ u ∈ front ++ [stem], IsName u := by
  have hlast : IsName (stem ++ '.' :: extension) := h.isName _ (by simp)
  refine List.forall_mem_append.2 ⟨fun u hu => h.isName u (List.mem_append_left _ hu), ?_⟩
  simpa using (hlast.of_stem h.stem_ne h.visible).1

theorem isName_index : ∀ u ∈ front ++ [stem] ++ [indexName], IsName u :=
  List.forall_mem_append.2 ⟨h.isName_stem, by decide⟩

theorem splitName_eq : splitName (stem ++ '.' :: extension) = (stem, some extension) :=
  splitName_append h.stem_ne h.dot_notMem

theorem isName_below {top : Text} (htop : IsName top) : ∀ u ∈ top :: (front ++ [stem ++ '.' :: extension]), IsName u :=
  List.forall_mem_cons.2 ⟨htop, h.isName⟩

theorem withExtension_joinText :
    ((ofNames (front ++ [stem ++ '.' :: extension])).withExtension []).joinText indexName =
      ofNames (front ++ [stem] ++ [indexName]) := by
  rw [withExtension_nil_ofNames h.isName h.stem_ne h.visible h.dot_notMem]
  exact joinText_ofNames (by simp) h.isName_stem (by decide)

theorem pageTarget_eq : pageTarget (ofNames ("pages".toList :: (front ++ [stem ++ '.' :: extension]))) =
    if stem = "index".toList then ofNames (front ++ [stem ++ '.' :: extension])
    else ofNames (front ++ [stem] ++ [indexName]) := by
  have hrelative : (ofNames ("pages".toList :: (front ++ [stem ++ '.' :: extension]))).relativeTo SitePath.pages =
      ofNames (front ++ [stem ++ '.' :: extension]) :=
    relativeTo_ofNames (l := ["pages".toList]) (by decide) (by decide) h.isName
  rw [pageTarget, hrelative, stem?_ofNames h.isName, h.splitName_eq, h.withExtension_joinText]
  simp only [Option.some.injEq]

theorem contentTarget_eq : contentTarget (ofNames ("content".toList :: (front ++ [stem ++ '.' :: extension]))) =
    ofNames (front ++ [stem] ++ [indexName]) := by
  have hrelative : (ofNames ("content".toList :: (front ++ [stem ++ '.' :: extension]))).relativeTo SitePath.content =
      ofNames (front ++ [stem ++ '.' :: extension]) :=
    relativeTo_ofNames (l := ["content".toList]) (by decide) (by decide) h.isName
  rw [contentTarget, hrelative, h.withExtension_joinText]

end NamesFile

/-- What the file of a document is called. -/
inductive Job.Named (job : Job) (front : List Text) (stem extension : Text) : Prop
  | page : job = pageJob (ofNames ("pages".toList :: (front ++ [stem ++ '.' :: extension]))) →
    Text.sameIgnoringAsciiCase "html".toList extension → Job.Named job front stem extension
  | content : job = contentJob (ofNames ("content".toList :: (front ++ [stem ++ '.' :: extension]))) →
    Text.sameIgnoringAsciiCase "md".toList extension → Job.Named job front stem extension

theorem namesFile_of_hasExtension {wanted s : Text} {top : List Text} (h : ∀ u ∈ front ++ [s], IsName u)
    (htop : ∀ u ∈ top, IsName u) (hvisible : s.head? ≠ some '.')
    (hextension : hasExtension wanted (ofNames (top ++ (front ++ [s])))) :
    ∃ stem extension, s = stem ++ '.' :: extension ∧ NamesFile front stem extension ∧
      Text.sameIgnoringAsciiCase wanted extension := by
  have hall : ∀ u ∈ top ++ front ++ [s], IsName u := by
    rw [List.append_assoc]
    exact List.forall_mem_append.2 ⟨htop, h⟩
  rw [hasExtension, ← List.append_assoc, extension?_ofNames hall] at hextension
  cases hsplit : splitName s with
  | mk stem found =>
  rw [hsplit] at hextension
  cases found with
  | none => cases hextension
  | some extension =>
    obtain ⟨rfl, hstem, hdot⟩ := eq_append_of_splitName hsplit
    refine ⟨stem, extension, rfl, ⟨h, hstem, ?_, hdot⟩, hextension⟩
    obtain ⟨c, r, rfl⟩ := List.exists_cons_of_ne_nil hstem
    simpa using hvisible

/-- Every document of a site has a file with a name and an extension. -/
theorem exists_named_of_mem_jobs (hd : d.WellFormed) (hjobs : jobs (DirectoryStore.mk root d) = .ok js)
    (hjob : job ∈ js) : ∃ front stem extension, NamesFile front stem extension ∧ job.Named front stem extension := by
  unfold jobs at hjobs
  cases hpages : Storage.walk (DirectoryStore.mk root d) SitePath.pages with
  | error err =>
    rw [hpages] at hjobs
    cases hjobs
  | ok pages =>
    cases hcontents : Storage.walk (DirectoryStore.mk root d) SitePath.content with
    | error err =>
      rw [hpages, hcontents] at hjobs
      cases hjobs
    | ok contents =>
      rw [hpages, hcontents] at hjobs
      obtain rfl := Except.ok.inj hjobs
      rcases List.mem_append.1 hjob with hmem | hmem
      · obtain ⟨p, hp, rfl⟩ := List.mem_map.1 hmem
        obtain ⟨hp, hpage⟩ := List.mem_filter.1 hp
        obtain ⟨front, s, rfl, hnames, hvisible⟩ :=
          hd.exists_names_of_mem_walk (l := ["pages".toList]) (by decide) (by decide) hpages hp
        obtain ⟨stem, extension, rfl, hfile, hsame⟩ :=
          namesFile_of_hasExtension hnames (by decide) hvisible (Bool.and_eq_true_iff.1 hpage).1
        exact ⟨front, stem, extension, hfile, .page rfl hsame⟩
      · obtain ⟨p, hp, rfl⟩ := List.mem_map.1 hmem
        obtain ⟨hp, hcontent⟩ := List.mem_filter.1 hp
        obtain ⟨front, s, rfl, hnames, hvisible⟩ :=
          hd.exists_names_of_mem_walk (l := ["content".toList]) (by decide) (by decide) hcontents hp
        obtain ⟨stem, extension, rfl, hfile, hsame⟩ :=
          namesFile_of_hasExtension hnames (by decide) hvisible (Bool.and_eq_true_iff.1 hcontent).1
        exact ⟨front, stem, extension, hfile, .content rfl hsame⟩

/-! ## Targets -/

namespace Job.Named

variable (h : job.Named front stem extension) (hfile : NamesFile front stem extension)
include h hfile

theorem names_eq : job.names = front ++ [stem ++ '.' :: extension] := by
  cases h with
  | page hjob _ =>
    rw [hjob, Job.names, pageJob, names_ofNames (hfile.isName_below (by decide)), List.drop_one, List.tail_cons]
  | content hjob _ =>
    rw [hjob, Job.names, contentJob, names_ofNames (hfile.isName_below (by decide)), List.drop_one, List.tail_cons]

theorem directory_eq : job.directory = front := by rw [Job.directory, h.names_eq hfile, List.dropLast_concat]

theorem name_eq : job.name = stem ++ '.' :: extension := by
  rw [Job.name, h.names_eq hfile, List.getLast?_concat, Option.getD_some]

theorem stem_eq : job.stem = stem := by rw [Job.stem, h.name_eq hfile, hfile.splitName_eq]

/-- A document is written to the file of its name in the directory of its route. -/
theorem target_eq : job.target = ofNames (job.route ++ [job.fileName]) ∧
    ∀ u ∈ job.route ++ [job.fileName], IsName u := by
  have hstem := h.stem_eq hfile
  rw [Job.route, Job.fileName, h.directory_eq hfile, hstem, h.name_eq hfile]
  cases h with
  | page hjob _ =>
    have htarget : job.target = pageTarget (ofNames ("pages".toList :: (front ++ [stem ++ '.' :: extension]))) := by
      rw [hjob, pageJob]
    have hindex : job.isIndex = decide (stem = "index".toList) := by
      rw [Job.isIndex, hstem, hjob, pageJob]
      rfl
    rw [htarget, hfile.pageTarget_eq, hindex]
    by_cases hname : stem = "index".toList
    · simp only [if_pos hname, decide_eq_true hname]
      exact ⟨rfl, hfile.isName⟩
    · simp only [if_neg hname, decide_eq_false hname]
      exact ⟨rfl, hfile.isName_index⟩
  | content hjob _ =>
    have htarget : job.target =
        contentTarget (ofNames ("content".toList :: (front ++ [stem ++ '.' :: extension]))) := by
      rw [hjob, contentJob]
    have hindex : job.isIndex = false := by
      rw [Job.isIndex, hjob, contentJob]
      rfl
    rw [htarget, hfile.contentTarget_eq, hindex]
    exact ⟨rfl, hfile.isName_index⟩

/-- No document is written to a file with the extension of collections. -/
theorem not_json_suffix : ¬ ".json".toList <:+ job.fileName := by
  rw [Job.fileName]
  split
  · next hindex =>
    rw [h.name_eq hfile]
    cases h with
    | page _ hsame =>
      have hlower : "html".toList.map Text.asciiLower = extension.map Text.asciiLower := by
        simpa [Text.sameIgnoringAsciiCase] using hsame
      rintro ⟨t, ht⟩
      -- the last letter is that of the extension
      have hlast : (stem ++ '.' :: extension).getLast? = some 'n' := by
        rw [← ht, List.getLast?_append]
        rfl
      have hextension : extension ≠ [] := by
        rintro rfl
        cases hlower
      have hn : extension.getLast? = some 'n' := by
        rw [← hlast, List.getLast?_append_of_ne_nil _ (List.cons_ne_nil _ _),
          List.getLast?_cons_of_ne_nil hextension]
      have hl := congrArg List.getLast? hlower
      rw [List.getLast?_map, List.getLast?_map, hn] at hl
      exact absurd hl (by decide)
    | content hjob _ =>
      rw [Job.isIndex, hjob] at hindex
      cases hindex
  · decide

end Job.Named

/-- Two documents of a site have the same target if and only if they clash. -/
theorem same_target_iff_clash (hd : d.WellFormed) (hjobs : jobs (DirectoryStore.mk root d) = .ok js) (ha : a ∈ js)
    (hb : b ∈ js) : a.target.same b.target ↔ a.Clash b := by
  obtain ⟨front, stem, extension, hfile, hnamed⟩ := exists_named_of_mem_jobs hd hjobs ha
  obtain ⟨front', stem', extension', hfile', hnamed'⟩ := exists_named_of_mem_jobs hd hjobs hb
  obtain ⟨htarget, hnames⟩ := hnamed.target_eq hfile
  obtain ⟨htarget', hnames'⟩ := hnamed'.target_eq hfile'
  rw [htarget, htarget', same_ofNames_iff hnames hnames']
  constructor
  · intro h
    obtain ⟨hroute, hname⟩ := List.append_inj' h rfl
    exact ⟨hroute, List.singleton_inj.1 hname⟩
  · rintro ⟨hroute, hname⟩
    rw [hroute, hname]

end Site

end Pagewright
