import Mathlib.Data.List.Lemmas
import Pagewright.Proofs.Storage.Place
import Pagewright.Site.Basic

/-!
# What a directory store reaches

A `DirectoryStore` refuses paths with a step upwards, to keep its operations below its directory. Two things
live here:

* the places that an operation on a path reads, lists and writes: they are at or below the place to which the
  path leads on the disk (`DirectoryStore.touches_placeOf`);
* the exact condition under which that place is at or below the directory of the store
  (`DirectoryStore.locate_below_iff`). A path that is not written from the root meets it, one that is replaces
  the directory and need not.
-/

namespace Pagewright

namespace Disk

variable {d e : Disk} {place q : Place} {p base : Path}

/-! ## Looking -/

theorem readText_eq_ok_iff {t : Text} : d.readText p = .ok t ↔ ∃ q, d.find p = .ok (q, .file (some t)) := by
  unfold readText
  split <;> simp_all

theorem entry?_of_readText {t : Text} (h : d.readText p = .ok t) :
    d.entry? (d.placeOf p) = some (.file (some t)) := by
  obtain ⟨q, hfind⟩ := readText_eq_ok_iff.1 h
  obtain ⟨rfl, hentry⟩ := find_eq_ok hfind
  exact hentry

theorem entry?_of_isPresent (h : d.isPresent p) : (d.entry? (d.placeOf p)).isSome := by
  unfold isPresent at h
  split at h
  · next found hfind =>
    obtain ⟨hplace, hentry⟩ := find_eq_ok (q := found.1) (e := found.2) hfind
    rw [← hplace, hentry]
    rfl
  · cases h

theorem mem_entries_of_mem_children {name : Text} {e : DiskEntry} (h : (name, e) ∈ d.children place) :
    (place ++ [name], e) ∈ d.entries := by
  obtain ⟨⟨q, f⟩, hmem, hq⟩ := List.mem_filterMap.1 h
  dsimp only at hq
  split at hq
  · next last hlast =>
    split at hq
    · next hdrop =>
      simp only [Option.some.injEq, Prod.mk.injEq] at hq
      obtain ⟨rfl, rfl⟩ := hq
      obtain ⟨front, rfl⟩ := List.getLast?_eq_some_iff.1 hlast
      rw [List.dropLast_concat] at hdrop
      rw [← hdrop]
      exact hmem
    · cases hq
  · cases hq

/-- A file that is found below a place has a way from there to its own place. -/
theorem mem_entries_of_mem_filesBelow {depth : Nat} (h : p ∈ d.filesBelow depth place base) :
    ∃ names content, (place ++ names, .file content) ∈ d.entries ∧ p = names.foldl Path.joinText base := by
  induction depth generalizing place base with
  | zero => cases h
  | succ depth ih =>
    rw [filesBelow] at h
    obtain ⟨⟨name, e⟩, hchild, hp⟩ := List.mem_flatMap.1 h
    have hentry := mem_entries_of_mem_children hchild
    dsimp only at hp
    split at hp
    · cases hp
    · cases e with
      | directory =>
        obtain ⟨names, content, hmem, hbase⟩ := ih hp
        exact ⟨name :: names, content, by simpa using hmem, by simpa using hbase⟩
      | file content =>
        rw [List.mem_singleton] at hp
        exact ⟨[name], content, hentry, hp⟩

/-! ## Making directories -/

/-- The second disk has new directories at most; whatever was there stays. -/
structure OnlyDirectoriesAdded (d e : Disk) : Prop where
  workingDirectory : e.workingDirectory = d.workingDirectory
  entry? : ∀ q, e.entry? q = d.entry? q ∨ (d.entry? q = none ∧ e.entry? q = some .directory)

theorem OnlyDirectoriesAdded.refl (d : Disk) : OnlyDirectoriesAdded d d := ⟨rfl, fun _ => Or.inl rfl⟩

theorem OnlyDirectoriesAdded.trans {f : Disk} (h : OnlyDirectoriesAdded d e) (h' : OnlyDirectoriesAdded e f) :
    OnlyDirectoriesAdded d f := by
  refine ⟨h'.workingDirectory.trans h.workingDirectory, fun q => ?_⟩
  rcases h.entry? q with hq | ⟨hnone, hdir⟩
  · rw [← hq]
    exact h'.entry? q
  · rcases h'.entry? q with hq' | ⟨hnone', -⟩
    · exact Or.inr ⟨hnone, hq'.trans hdir⟩
    · rw [hdir] at hnone'
      cases hnone'

theorem OnlyDirectoriesAdded.placeOf_eq (h : OnlyDirectoriesAdded d e) (p : Path) :
    e.placeOf p = d.placeOf p := by
  unfold placeOf
  rw [h.workingDirectory]

theorem entry?_put_of_ne {x : DiskEntry} (h : q ≠ place) : Disk.entry? (d.put place x) q = d.entry? q := by
  have hgo : ∀ l : List (Place × DiskEntry), (put.go place x l).lookup q = l.lookup q := by
    intro l
    induction l with
    | nil =>
      show List.lookup q [(place, x)] = none
      rw [List.lookup_cons, beq_eq_false_iff_ne.2 h]
      rfl
    | cons a l ih =>
      obtain ⟨r, f⟩ := a
      rw [put.go]
      split
      · next hr =>
        subst hr
        rw [List.lookup_cons, List.lookup_cons, beq_eq_false_iff_ne.2 h]
      · rw [List.lookup_cons, List.lookup_cons, ih]
  unfold entry? put
  dsimp only
  rw [hgo]

theorem entry?_put_self {x : DiskEntry} (h : place ≠ []) : Disk.entry? (d.put place x) place = some x := by
  have hgo : ∀ l : List (Place × DiskEntry), (put.go place x l).lookup place = some x := by
    intro l
    induction l with
    | nil =>
      show List.lookup place [(place, x)] = some x
      rw [List.lookup_cons, beq_self_eq_true]
    | cons a l ih =>
      obtain ⟨r, f⟩ := a
      rw [put.go]
      split
      · next hr =>
        subst hr
        rw [List.lookup_cons, beq_self_eq_true]
      · next hr => rw [List.lookup_cons, beq_eq_false_iff_ne.2 (Ne.symm hr), ih]
  unfold entry? put
  dsimp only
  rw [if_neg (by simpa using h), hgo]

theorem onlyDirectoriesAdded_of_makeDirectory (h : d.makeDirectory p = .ok e) :
    OnlyDirectoriesAdded d e := by
  unfold makeDirectory at h
  cases hplace : d.resolve p with
  | error err => simp [hplace, bind, Except.bind] at h
  | ok place =>
    rw [hplace] at h
    simp only [bind, Except.bind, pure, Except.pure] at h
    split at h
    · cases h
    · next hfree =>
      rw [Except.ok.injEq] at h
      subst h
      have hnone : d.entry? place = none := by simpa using hfree
      have hne : place ≠ [] := by
        rintro rfl
        cases hnone
      refine ⟨rfl, fun q => ?_⟩
      by_cases hq : q = place
      · subst hq
        exact Or.inr ⟨hnone, entry?_put_self hne⟩
      · exact Or.inl (entry?_put_of_ne hq)

theorem onlyDirectoriesAdded_makeDirectories (n : Nat) :
    OnlyDirectoriesAdded d (d.makeDirectories p n).2 := by
  induction n generalizing d p with
  | zero => exact .refl d
  | succ n ih =>
    rw [makeDirectories]
    split
    · exact .refl d
    · split
      · next made hmade => exact onlyDirectoriesAdded_of_makeDirectory hmade
      · split
        · split
          · exact .refl d
          · next parent _ =>
            have habove : OnlyDirectoriesAdded d (d.makeDirectories parent n).2 := ih
            split
            · next err made heq =>
              rw [heq] at habove
              exact habove
            · next made heq =>
              rw [heq] at habove
              split
              · next made' hmade => exact habove.trans (onlyDirectoriesAdded_of_makeDirectory hmade)
              · split <;> exact habove
        · split <;> exact .refl d

/-! ## Writing -/

/-- What is written is put at the place of the path, which is not that of a directory. -/
theorem eq_put_of_writeText {t : Text} (h : d.writeText p t = .ok e) :
    ∃ place, d.resolve p = .ok place ∧ d.entry? place ≠ some .directory ∧ e = d.put place (.file (some t)) := by
  unfold writeText at h
  dsimp only at h
  set trimmed := (p.text.reverse.dropWhile (· = '/')).reverse
  cases hplace : d.resolve (if trimmed.isEmpty then p else ⟨trimmed⟩) with
  | error err =>
    rw [hplace] at h
    cases h
  | ok place =>
    rw [hplace] at h
    simp only [bind, Except.bind, pure, Except.pure] at h
    split at h
    · cases h
    · next hname =>
      rw [Except.ok.injEq] at h
      -- nothing was taken off, so the name is the path
      simp only [Bool.or_eq_true, decide_eq_true_eq, not_or, Nat.not_lt] at hname
      have hprefix : trimmed <+: p.text := by
        rw [← List.reverse_suffix, List.reverse_reverse]
        exact List.dropWhile_suffix _
      have htrimmed : trimmed = p.text := hprefix.eq_of_length (le_antisymm hprefix.length_le hname.1)
      have hpath : (if trimmed.isEmpty then p else ⟨trimmed⟩) = p := by
        rw [htrimmed]
        split <;> rfl
      rw [hpath] at hplace
      exact ⟨place, hplace, hname.2, h.symm⟩

theorem entry?_of_writeText {t : Text} (h : d.writeText p t = .ok e) (hq : q ≠ d.placeOf p) :
    e.entry? q = d.entry? q := by
  obtain ⟨place, hplace, -, rfl⟩ := eq_put_of_writeText h
  rw [← resolve_eq_placeOf hplace] at hq
  exact entry?_put_of_ne hq

end Disk

namespace DirectoryStore

variable {s : DirectoryStore} {p full : Path} {place : Place}

/-- The place of the directory of a store. -/
def home (s : DirectoryStore) : Place := s.disk.placeOf s.root

/-- The operations on a path read and list what is at a place and below it, and write to that place. Elsewhere
writing may only make directories that are missing. -/
structure Touches (s : DirectoryStore) (p : Path) (place : Place) : Prop where
  read : ∀ t, s.read p = .ok t → s.disk.entry? place = some (.file (some t))
  isPresent : s.isPresent p → (s.disk.entry? place).isSome
  list : ∀ found, s.list p = .ok found → ∀ q ∈ found,
    ∃ name content, q = p.joinText name ∧ (place ++ [name], .file content) ∈ s.disk.entries
  walk : ∀ found, s.walk p = .ok found → ∀ q ∈ found,
    ∃ names content, q = names.foldl Path.joinText p ∧ (place ++ names, .file content) ∈ s.disk.entries
  write : ∀ t q, q ≠ place → Disk.entry? (s.write p t).2.disk q = s.disk.entry? q ∨
    (s.disk.entry? q = none ∧ Disk.entry? (s.write p t).2.disk q = some .directory)

private theorem mapError_eq_ok {α ε ε' : Type} {f : ε → ε'} {x : Except ε α} {a : α}
    (h : x.mapError f = .ok a) : x = .ok a := by
  cases x with
  | error err => cases h
  | ok b => exact congrArg Except.ok (Except.ok.inj h)

/-- The operations go to the place of the path on the disk. -/
theorem touches_placeOf (h : s.locate p = .ok full) : s.Touches p (s.disk.placeOf full) where
  read t hread := by
    have hfull : (s.disk.readText full).mapError (failure · full) = .ok t := by
      rw [DirectoryStore.read, h] at hread
      exact hread
    exact Disk.entry?_of_readText (mapError_eq_ok hfull)
  isPresent hpresent := by
    rw [DirectoryStore.isPresent, h] at hpresent
    exact Disk.entry?_of_isPresent hpresent
  list found hlist q hq := by
    rw [DirectoryStore.list, h] at hlist
    simp only [bind, Except.bind] at hlist
    cases hread : s.disk.readDirectory full with
    | error err =>
      rw [hread] at hlist
      cases hlist
    | ok children =>
      rw [hread] at hlist
      have hfound := Except.ok.inj hlist
      subst hfound
      unfold Disk.readDirectory at hread
      split at hread
      · cases hread
      · cases hread
      · next place hfind =>
        rw [Except.ok.injEq] at hread
        subst hread
        obtain ⟨⟨name, e⟩, hchild, hname⟩ := List.mem_filterMap.1 (List.mem_mergeSort.1 hq)
        cases e with
        | directory => cases hname
        | file content =>
          refine ⟨name, content, (Option.some.inj hname).symm, ?_⟩
          rw [← (Disk.find_eq_ok hfind).1]
          exact Disk.mem_entries_of_mem_children hchild
  walk found hwalk q hq := by
    rw [DirectoryStore.walk, h] at hwalk
    simp only [bind, Except.bind, pure, Except.pure] at hwalk
    split at hwalk
    · next place hfind =>
      rw [Except.ok.injEq] at hwalk
      subst hwalk
      obtain ⟨names, content, hmem, hpath⟩ :=
        Disk.mem_entries_of_mem_filesBelow (List.mem_mergeSort.1 hq)
      rw [← (Disk.find_eq_ok hfind).1]
      exact ⟨names, content, hpath, hmem⟩
    · rw [Except.ok.injEq] at hwalk
      subst hwalk
      cases hq
  write t q hq := by
    -- the directories above the file are made first, then the file
    have hfile : ∀ {made written : Disk}, Disk.OnlyDirectoriesAdded s.disk made →
        made.writeText full t = .ok written → written.entry? q = s.disk.entry? q ∨
          (s.disk.entry? q = none ∧ written.entry? q = some .directory) := by
      intro made written hmade hwritten
      rw [Disk.entry?_of_writeText hwritten (by rwa [hmade.placeOf_eq])]
      exact hmade.entry? q
    unfold DirectoryStore.write
    rw [h]
    dsimp only
    cases full.parent? with
    | none =>
      dsimp only
      split
      · next written hwritten => exact hfile (.refl _) hwritten
      · exact Or.inl rfl
    | some parent =>
      have hmade : Disk.OnlyDirectoriesAdded s.disk (s.disk.makePath parent).2 :=
        Disk.onlyDirectoriesAdded_makeDirectories _
      dsimp only
      split
      · exact hmade.entry? q
      · split
        · next written hwritten => exact hfile hmade hwritten
        · exact hmade.entry? q

/-! ## Which paths stay below the directory -/

theorem locate_eq_ok_iff : s.locate p = .ok full ↔ climbs p = false ∧ full = s.root.join p := by
  unfold locate
  split
  · next h => simp [h]
  · next h => simp [h, eq_comm]

private theorem parent_notMem_of_climbs (h : climbs p = false) : Path.Component.parent ∉ p.components := by
  intro hmem
  have hclimbs : climbs p = true := List.any_eq_true.2 ⟨.parent, hmem, by decide⟩
  rw [h] at hclimbs
  cases hclimbs

/-- A path that is not written from the root goes on behind the directory. -/
theorem isBelow_of_relative (h : s.locate p = .ok full) (hp : p.isAbsolute = false) :
    s.root.IsBelow full ∧ s.home <+: s.disk.placeOf full := by
  obtain ⟨hclimbs, rfl⟩ := locate_eq_ok_iff.1 h
  obtain ⟨rest, hrest, hsub⟩ : ∃ rest, (s.root.join p).components = s.root.components ++ rest ∧
      rest ⊆ p.components := Path.components_join hp
  have hparent : Path.Component.parent ∉ rest := fun hmem => parent_notMem_of_climbs hclimbs (hsub hmem)
  have hroot : Path.Component.root ∉ rest := fun hmem => Path.root_notMem_components hp (hsub hmem)
  refine ⟨⟨rest, hrest, hparent⟩, ?_⟩
  unfold home Disk.placeOf
  rw [hrest, List.foldl_append]
  exact Path.prefix_lead hroot hparent

/-- A path that is written from the root replaces the directory. -/
theorem eq_of_absolute (h : s.locate p = .ok full) (hp : p.isAbsolute) : full = p := by
  obtain ⟨-, rfl⟩ := locate_eq_ok_iff.1 h
  exact if_pos hp

end DirectoryStore

namespace SitePath

/-- The paths that the directives of a page can ask for by a name: a dump, a partial, a layout, a page, a
global content, a collection and a directory of contents. -/
def named (name : Text) : List Path :=
  [⟨name⟩, includes.joinText name, layouts.joinText name, pages.joinText name, globalFile name,
    collectionFile name, ⟨"content/".toList ++ name⟩]

private theorem isAbsolute_joinText {base : Path} {t : Text} (hbase : base.isAbsolute = false)
    (hne : base.text ≠ []) (ht : t.head? ≠ some '/') : (base.joinText t).isAbsolute = false := by
  obtain ⟨c, u, hu⟩ := List.exists_cons_of_ne_nil hne
  have hjoin : base.joinText t = ⟨base.text ++ t⟩ ∨ base.joinText t = ⟨base.text ++ '/' :: t⟩ := by
    unfold Path.joinText Path.join
    rw [if_neg (by simpa [Path.isAbsolute] using ht)]
    split
    · exact Or.inl rfl
    · exact Or.inr rfl
  unfold Path.isAbsolute at hbase ⊢
  rcases hjoin with h | h <;> rw [h] <;> rw [hu] at hbase ⊢ <;> exact hbase

/-- A name that does not begin with a separator is no path from the root, whatever it is asked for as. -/
theorem isAbsolute_of_mem_named {name : Text} {p : Path} (h : p ∈ named name)
    (hname : name.head? ≠ some '/') : p.isAbsolute = false := by
  have happend : ∀ {ext : Text}, ext.head? = some '.' → (name ++ ext).head? ≠ some '/' := by
    intro ext hext
    cases name with
    | nil =>
      rw [List.nil_append, hext]
      decide
    | cons c r => exact hname
  simp only [named, List.mem_cons, List.not_mem_nil, or_false] at h
  rcases h with rfl | rfl | rfl | rfl | rfl | rfl | rfl
  · exact decide_eq_false hname
  · exact isAbsolute_joinText (by decide) (by decide) hname
  · exact isAbsolute_joinText (by decide) (by decide) hname
  · exact isAbsolute_joinText (by decide) (by decide) hname
  · exact isAbsolute_joinText (by decide) (by decide) (happend rfl)
  · exact isAbsolute_joinText (by decide) (by decide) (happend rfl)
  · rfl

end SitePath

namespace DirectoryStore

variable {s : DirectoryStore} {p full : Path}

/-- A path that is not refused leads below the directory of the store, and so does all that is read, listed and
written for it, if and only if it is not written from the root or goes there by itself; names that pages give
and that do not begin with a separator always lead there. -/
theorem locate_below_iff (h : s.locate p = .ok full) :
    (s.root.IsBelow full ↔ (p.isAbsolute → s.root.components <+: p.components)) ∧
      s.Touches p (s.disk.placeOf full) ∧
      (s.home <+: s.disk.placeOf full ↔ (p.isAbsolute → s.home <+: s.disk.placeOf p)) ∧
      ∀ name, p ∈ SitePath.named name → name.head? ≠ some '/' →
        s.root.IsBelow full ∧ s.home <+: s.disk.placeOf full := by
  refine ⟨⟨?_, ?_⟩, touches_placeOf h, ⟨?_, ?_⟩, fun name hmem hname => ?_⟩
  · rintro ⟨rest, hrest, -⟩ hp
    rw [← eq_of_absolute h hp, hrest]
    exact List.prefix_append _ _
  · intro hprefix
    cases hp : p.isAbsolute with
    | false => exact (isBelow_of_relative h hp).1
    | true =>
      obtain ⟨rest, hrest⟩ := hprefix hp
      rw [eq_of_absolute h hp]
      refine ⟨rest, hrest.symm, fun hmem => ?_⟩
      apply parent_notMem_of_climbs (locate_eq_ok_iff.1 h).1
      rw [← hrest]
      exact List.mem_append_right _ hmem
  · intro hhome hp
    rw [← eq_of_absolute h hp]
    exact hhome
  · intro hhome
    cases hp : p.isAbsolute with
    | false => exact (isBelow_of_relative h hp).2
    | true =>
      rw [eq_of_absolute h hp]
      exact hhome hp
  · exact isBelow_of_relative h (SitePath.isAbsolute_of_mem_named hmem hname)

/-! ## A file beside the site -/

/-- A disk with a site and a file beside it. -/
def besideDisk : Disk where
  entries := [(["site".toList], .directory), (["site".toList, "a.txt".toList], .file (some ['a'])),
    (["secret.txt".toList], .file (some ['s']))]
  workingDirectory := []

/-- The site on that disk. -/
def besideStore : DirectoryStore := ⟨⟨"/site".toList⟩, besideDisk⟩

/-- A file of the site is found below its directory. -/
theorem locate_below_of_relative :
    besideStore.locate ⟨"a.txt".toList⟩ = .ok ⟨"/site/a.txt".toList⟩ ∧
      besideStore.read ⟨"a.txt".toList⟩ = .ok ['a'] ∧
      besideStore.root.IsBelow ⟨"/site/a.txt".toList⟩ ∧
      besideStore.home <+: besideStore.disk.placeOf ⟨"/site/a.txt".toList⟩ := by
  have hlocate : besideStore.locate ⟨"a.txt".toList⟩ = .ok ⟨"/site/a.txt".toList⟩ := by decide
  have h := locate_below_iff hlocate
  exact ⟨hlocate, by decide, h.2.2.2 "a.txt".toList List.mem_cons_self (by decide)⟩

/-- A path from the root is not refused, and the file beside the site is read. -/
theorem read_beside :
    besideStore.locate ⟨"/secret.txt".toList⟩ = .ok ⟨"/secret.txt".toList⟩ ∧
      ¬ besideStore.root.IsBelow ⟨"/secret.txt".toList⟩ ∧
      ¬ besideStore.home <+: besideStore.disk.placeOf ⟨"/secret.txt".toList⟩ ∧
      besideStore.read ⟨"/secret.txt".toList⟩ = .ok ['s'] := by
  refine ⟨by decide, ?_, by decide, by decide⟩
  rintro ⟨rest, hrest, -⟩
  have hcomponents : (Path.mk "/secret.txt".toList).components = [.root, .name "secret.txt".toList] := by decide
  have hroot : besideStore.root.components = [.root, .name "site".toList] := by decide
  rw [hcomponents, hroot] at hrest
  simp at hrest

end DirectoryStore

end Pagewright
