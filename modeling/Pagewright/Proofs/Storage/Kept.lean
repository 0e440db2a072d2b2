import Pagewright.Proofs.Storage.Making
import Pagewright.Proofs.Storage.Spelling

/-!
# What is kept on a disk

Writing below a directory of a disk changes the file at one place at most (`DirectoryStore.write_cases`). So a file
that was written is found again (`DirectoryStore.find_of_write`), and after it was followed by others, as long as they
go to other places (`Disk.Keeps`). The text of a file that is there can always be replaced, and paths name something
after it where they did before (`Disk.isPresent_put_of_find`).
-/

namespace Pagewright

open Pagewright.Path

namespace Disk

variable {d e f : Disk} {p : Path} {q : Place} {content : Option Text} {P Q : Place → Prop}

theorem placeOf_join (hp : p.Ordinary) (base : Path) (d : Disk) :
    d.placeOf (base.join p) = d.placeOf base ++ p.names := by
  have hlead : ∀ (l : List Text) (place : Place),
      (l.map Component.name).foldl Component.lead place = place ++ l := by
    intro l
    induction l with
    | nil => exact fun place => (List.append_nil place).symm
    | cons s l ih =>
      intro place
      rw [List.map_cons, List.foldl_cons, ih, Component.lead, List.append_assoc]
      rfl
  rw [placeOf, hp.components_join base, List.foldl_append, hp.components_eq, hlead]
  rfl

/-- The second disk has the directories of the first one, and its files at places of a kind. -/
structure Keeps (P : Place → Prop) (d e : Disk) : Prop where
  workingDirectory : e.workingDirectory = d.workingDirectory
  directory : ∀ q, d.entry? q = some .directory → e.entry? q = some .directory
  file : ∀ q content, P q → d.entry? q = some (.file content) → e.entry? q = some (.file content)

namespace Keeps

theorem refl (P : Place → Prop) (d : Disk) : Keeps P d d := ⟨rfl, fun _ h => h, fun _ _ _ h => h⟩

theorem mono (h : Keeps P d e) (hQ : ∀ q, Q q → P q) : Keeps Q d e :=
  ⟨h.workingDirectory, h.directory, fun q content hq => h.file q content (hQ q hq)⟩

theorem trans (h : Keeps P d e) (h' : Keeps P e f) : Keeps P d f where
  workingDirectory := h'.workingDirectory.trans h.workingDirectory
  directory q hq := h'.directory q (h.directory q hq)
  file q content hP hq := h'.file q content hP (h.file q content hP hq)

theorem placeOf_eq (h : Keeps P d e) (p : Path) : e.placeOf p = d.placeOf p := by
  unfold placeOf
  rw [h.workingDirectory]

theorem resolve (h : Keeps P d e) (hp : d.resolve p = .ok q) : e.resolve p = .ok q := by
  obtain ⟨hzero, hne, hfollow⟩ := resolve_eq_ok_iff.1 hp
  refine resolve_eq_ok_iff.2 ⟨hzero, hne, ?_⟩
  rw [origin, h.workingDirectory]
  exact follow_mono h.directory hfollow

/-- A path finds the file it found. -/
theorem find (h : Keeps P d e) (hq : P q) (hp : d.find p = .ok (q, .file content)) :
    e.find p = .ok (q, .file content) := by
  obtain ⟨hresolve, hentry⟩ := find_eq_ok_iff.1 hp
  exact find_eq_ok_iff.2 ⟨h.resolve hresolve, h.file q content hq hentry⟩

end Keeps

theorem OnlyDirectoriesAdded.keeps (h : OnlyDirectoriesAdded d e) (P : Place → Prop) : Keeps P d e := by
  have hkept : ∀ q x, d.entry? q = some x → e.entry? q = some x := by
    intro q x hq
    rcases h.entry? q with heq | ⟨hnone, -⟩
    · rw [heq, hq]
    · rw [hnone] at hq
      cases hq
  exact ⟨h.workingDirectory, fun q => hkept q _, fun q content _ => hkept q _⟩

/-- A file is written where no directory is, and everything else is kept. -/
theorem keeps_of_writeText {t : Text} (h : d.writeText p t = .ok e) : Keeps (· ≠ d.placeOf p) d e := by
  obtain ⟨place, hplace, hfree, rfl⟩ := eq_put_of_writeText h
  obtain rfl := resolve_eq_placeOf hplace
  refine ⟨rfl, fun q hq => ?_, fun q content hne hq => ?_⟩
  · have hne : q ≠ d.placeOf p := by
      rintro rfl
      exact hfree hq
    rwa [entry?_put_of_ne hne]
  · rwa [entry?_put_of_ne hne]

theorem find_of_writeText {t : Text} (h : d.writeText p t = .ok e) :
    e.find p = .ok (d.placeOf p, .file (some t)) := by
  have hkeeps := keeps_of_writeText h
  obtain ⟨place, hplace, hfree, rfl⟩ := eq_put_of_writeText h
  have hresolve := hkeeps.resolve hplace
  obtain rfl := resolve_eq_placeOf hplace
  have hne : d.placeOf p ≠ [] := by
    intro hnil
    exact hfree (by rw [hnil]; rfl)
  exact find_eq_ok_iff.2 ⟨hresolve, entry?_put_self hne⟩

/-! ## Replacing a text -/

/-- The text of a file that is there can be replaced. -/
theorem writeText_of_find (h : d.find p = .ok (q, .file content)) (t : Text) :
    d.writeText p t = .ok (d.put q (.file (some t))) := by
  obtain ⟨hresolve, hentry⟩ := find_eq_ok_iff.1 h
  have hfree : d.entry? q ≠ some .directory := by simp [hentry]
  have hends : p.EndsInName := by
    by_contra hends
    exact hfree (entry?_of_not_endsInName hresolve hends)
  exact writeText_of_resolve hends hresolve hfree t

theorem isPresent_iff : d.isPresent p ↔ ∃ q, d.resolve p = .ok q ∧ (d.entry? q).isSome := by
  constructor
  · intro h
    cases hfind : d.find p with
    | error err =>
      rw [isPresent, hfind] at h
      cases h
    | ok found =>
      obtain ⟨q, x⟩ := found
      obtain ⟨hresolve, hentry⟩ := find_eq_ok_iff.1 hfind
      exact ⟨q, hresolve, by rw [hentry]; rfl⟩
  · rintro ⟨q, hresolve, hentry⟩
    obtain ⟨x, hx⟩ := Option.isSome_iff_exists.1 hentry
    rw [isPresent, find_eq_ok_iff.2 ⟨hresolve, hx⟩]

/-- Paths name something on one disk where they do on the other if both have the same directories, and something at the
same places. -/
theorem isPresent_congr (hworking : e.workingDirectory = d.workingDirectory)
    (hdirectory : ∀ q, e.entry? q = some .directory ↔ d.entry? q = some .directory)
    (hentry : ∀ q, (e.entry? q).isSome = (d.entry? q).isSome) (p : Path) : e.isPresent p = d.isPresent p := by
  have hresolve : ∀ q, e.resolve p = .ok q ↔ d.resolve p = .ok q := by
    intro q
    have horigin : e.origin p = d.origin p := by rw [origin, origin, hworking]
    rw [resolve_eq_ok_iff, resolve_eq_ok_iff, horigin]
    exact and_congr_right fun _ => and_congr_right fun _ =>
      ⟨follow_mono fun x => (hdirectory x).1, follow_mono fun x => (hdirectory x).2⟩
  rw [Bool.eq_iff_iff, isPresent_iff, isPresent_iff]
  simp only [hresolve, hentry]

/-- Replacing the text of a file changes nothing about what is there. -/
theorem isPresent_put_of_find {t : Text} (h : d.find p = .ok (q, .file content)) (r : Path) :
    Disk.isPresent (d.put q (.file (some t))) r = d.isPresent r := by
  obtain ⟨-, hentry⟩ := find_eq_ok_iff.1 h
  have hne : q ≠ [] := by
    rintro rfl
    cases hentry
  have hkept : ∀ x, x = q ∨ Disk.entry? (d.put q (.file (some t))) x = d.entry? x := fun x =>
    or_iff_not_imp_left.2 fun hx => entry?_put_of_ne hx
  have hput : Disk.entry? (d.put q (.file (some t))) q = some (.file (some t)) := entry?_put_self hne
  have hworking : (d.put q (.file (some t))).workingDirectory = d.workingDirectory := rfl
  refine isPresent_congr hworking (fun x => ?_) (fun x => ?_) r
  · rcases hkept x with rfl | hx
    · simp [hput, hentry]
    · rw [hx]
  · rcases hkept x with rfl | hx
    · simp [hput, hentry]
    · rw [hx]

end Disk

namespace DirectoryStore

variable {s s' : DirectoryStore} {p full : Path} {t : Text} {q : Place}

/-- What writing does: it fails after directories were made, or directories are made and the file is put there. -/
theorem write_cases (s : DirectoryStore) (p : Path) (t : Text) :
    (∃ err disk, s.write p t = (.error err, { s with disk := disk }) ∧ Disk.OnlyDirectoriesAdded s.disk disk) ∨
      ∃ made disk, climbs p = false ∧ Disk.OnlyDirectoriesAdded s.disk made ∧
        made.writeText (s.root.join p) t = .ok disk ∧ s.write p t = (.ok (), { s with disk := disk }) := by
  unfold write
  cases hlocate : s.locate p with
  | error err => exact Or.inl ⟨err, s.disk, rfl, .refl _⟩
  | ok full =>
    obtain ⟨hclimbs, rfl⟩ := locate_eq_ok_iff.1 hlocate
    -- the directories that are missing are made first, if the path has a parent at all
    have hwrite : ∀ made, Disk.OnlyDirectoriesAdded s.disk made → ∀ result : Except StorageError Unit × DirectoryStore,
        (∀ disk, made.writeText (s.root.join p) t = .ok disk → result = (.ok (), { s with disk := disk })) →
        (∀ e, made.writeText (s.root.join p) t = .error e →
          result = (.error (failure e (s.root.join p)), { s with disk := made })) →
        (∃ err disk, result = (.error err, { s with disk := disk }) ∧ Disk.OnlyDirectoriesAdded s.disk disk) ∨
          ∃ made disk, climbs p = false ∧ Disk.OnlyDirectoriesAdded s.disk made ∧
            made.writeText (s.root.join p) t = .ok disk ∧ result = (.ok (), { s with disk := disk }) := by
      intro made hmade result hok herror
      cases hwritten : made.writeText (s.root.join p) t with
      | error e => exact Or.inl ⟨_, made, herror e hwritten, hmade⟩
      | ok disk => exact Or.inr ⟨made, disk, hclimbs, hmade, hwritten, hok disk hwritten⟩
    dsimp only
    cases (s.root.join p).parent? with
    | none =>
      dsimp only
      exact hwrite s.disk (.refl _) _ (fun disk h => by rw [h]) fun e h => by rw [h]
    | some parent =>
      have hmade : Disk.OnlyDirectoriesAdded s.disk (s.disk.makePath parent).2 :=
        Disk.onlyDirectoriesAdded_makeDirectories _
      dsimp only
      cases (s.disk.makePath parent).1 with
      | error err => exact Or.inl ⟨_, _, rfl, hmade⟩
      | ok done => exact hwrite _ hmade _ (fun disk h => by rw [h]; rfl) fun e h => by rw [h]; rfl

theorem root_write (s : DirectoryStore) (p : Path) (t : Text) : (s.write p t).2.root = s.root := by
  rcases s.write_cases p t with ⟨err, disk, heq, -⟩ | ⟨made, disk, -, -, -, heq⟩ <;> rw [heq]

/-- Files at other places are kept when a file is written. -/
theorem keeps_write (s : DirectoryStore) (p : Path) (t : Text) :
    Disk.Keeps (· ≠ s.disk.placeOf (s.root.join p)) s.disk (s.write p t).2.disk := by
  rcases s.write_cases p t with ⟨err, disk, heq, hadded⟩ | ⟨made, disk, -, hmade, hwritten, heq⟩
  · rw [heq]
    exact hadded.keeps _
  · rw [heq]
    have hkeeps := Disk.keeps_of_writeText hwritten
    rw [hmade.placeOf_eq] at hkeeps
    exact (hmade.keeps _).trans hkeeps

/-- All files are kept when a file cannot be written. -/
theorem keeps_of_unwritten {err : StorageError} (h : s.write p t = (.error err, s')) (P : Place → Prop) :
    Disk.Keeps P s.disk s'.disk := by
  rcases s.write_cases p t with ⟨err', disk, heq, hadded⟩ | ⟨made, disk, -, -, -, heq⟩
  · rw [heq] at h
    obtain rfl := (Prod.mk.inj h).2
    exact hadded.keeps P
  · rw [heq] at h
    cases (Prod.mk.inj h).1

/-- A file that was written is found. -/
theorem find_of_write (h : s.write p t = (.ok (), s')) :
    climbs p = false ∧ s'.disk.find (s.root.join p) = .ok (s.disk.placeOf (s.root.join p), .file (some t)) := by
  rcases s.write_cases p t with ⟨err', disk, heq, -⟩ | ⟨made, disk, hclimbs, hmade, hwritten, heq⟩
  · rw [heq] at h
    cases (Prod.mk.inj h).1
  · rw [heq] at h
    obtain rfl := (Prod.mk.inj h).2
    refine ⟨hclimbs, ?_⟩
    rw [← hmade.placeOf_eq]
    exact Disk.find_of_writeText hwritten

theorem read_of_find (hclimbs : climbs p = false) (h : s.disk.find (s.root.join p) = .ok (q, .file (some t))) :
    s.read p = .ok t := by
  rw [read, locate_eq_ok_iff.2 ⟨hclimbs, rfl⟩]
  show (s.disk.readText (s.root.join p)).mapError _ = _
  rw [Disk.readText, h]
  rfl

/-- What was written is read. -/
theorem read_of_write (h : s.write p t = (.ok (), s')) : s'.read p = .ok t := by
  obtain ⟨hclimbs, hfind⟩ := find_of_write h
  have hroot : s'.root = s.root := by
    rw [← root_write s p t, h]
  exact read_of_find hclimbs (by rw [hroot]; exact hfind)

end DirectoryStore

end Pagewright
