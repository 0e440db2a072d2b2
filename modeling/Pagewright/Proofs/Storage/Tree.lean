import Pagewright.Proofs.Storage.Following
import Pagewright.Proofs.Storage.Order

/-!
# Files in memory as a tree

A storage in memory keeps no directories, but the paths of its files say where they would be. Three things live here:

* what is at a path when the files are taken for a tree (`MemoryStore.entry?`);
* storages whose files make a tree that a disk can hold (`MemoryStore.IsTree`), and when a new file keeps it one
  (`MemoryStore.IsTree.insert`);
* the files that are listed in a directory, by the names between the two (`MemoryStore.IsTree.mem_inside_iff`,
  `MemoryStore.IsTree.mem_walked_iff`).
-/

namespace Pagewright

open Pagewright.Path

namespace MemoryStore

variable {m : MemoryStore} {p q directory : Path} {s t : Text}

/-! ## What is at a path -/

theorem get?_eq_none_iff : m.get? p = none ↔ ∀ q ∈ m.paths, ¬ q.same p := by
  rw [get?, Option.map_eq_none_iff, List.find?_eq_none, paths, List.forall_mem_map]

theorem toOption_read (m : MemoryStore) (p : Path) : (Storage.read m p).toOption = m.get? p := by
  simp only [Storage.read]
  cases m.get? p <;> rfl

theorem exists_mem_of_get? (h : m.get? p = some t) : ∃ q ∈ m.paths, q.same p := by
  by_contra hcontra
  rw [get?_eq_none_iff.2 fun q hq hsame => hcontra ⟨q, hq, hsame⟩] at h
  cases h

theorem isPresent_iff : Storage.isPresent m p ↔ ∃ q ∈ m.paths, p.isPrefixOf q := by
  have hpaths : m.paths.any p.isPrefixOf = Storage.isPresent m p := List.any_map
  rw [← hpaths, List.any_eq_true]

/-- What is at a path: a file, or a directory if there are files below. -/
def entry? (m : MemoryStore) (p : Path) : Option DiskEntry :=
  match m.get? p with
  | some t => some (.file (some t))
  | none => if Storage.isPresent m p then some .directory else none

theorem entry?_eq_file_iff {content : Option Text} :
    m.entry? p = some (.file content) ↔ ∃ t, content = some t ∧ m.get? p = some t := by
  unfold entry?
  split
  · next t ht => simp [ht, eq_comm]
  · next hnone => split <;> simp [hnone]

theorem isPresent_eq (m : MemoryStore) (p : Path) : Storage.isPresent m p = (m.entry? p).isSome := by
  unfold entry?
  split
  · next t ht =>
    obtain ⟨q, hq, hsame⟩ := exists_mem_of_get? ht
    have hinitial : p.isPrefixOf q := by
      rw [isPrefixOf, components_eq_of_same hsame]
      exact List.isPrefixOf_iff_prefix.2 List.prefix_rfl
    exact isPresent_iff.2 ⟨q, hq, hinitial⟩
  · split <;> simp_all

/-- A new file is there, with directories above it; elsewhere everything is as it was. -/
theorem entry?_insert (m : MemoryStore) (p q : Path) (t : Text) :
    MemoryStore.entry? (m.insert p t) q =
      if p.same q then some (.file (some t))
      else if q.isPrefixOf p && (m.get? q).isNone then some .directory
      else m.entry? q := by
  unfold entry?
  rw [get?_insert, isPresent_insert]
  cases p.same q with
  | true => rfl
  | false =>
    cases m.get? q with
    | some u => simp
    | none => cases q.isPrefixOf p <;> simp

/-! ## What is listed -/

theorem mem_below_iff : q ∈ m.below directory ↔ q ∈ m.paths ∧ directory.isPrefixOf q ∧ ¬ q.same directory := by
  rw [below, List.mem_filter, paths]
  simp

/-- A path is directly inside a directory if it has one component more. -/
theorem isInside_iff : isInside directory p ↔ ∃ c ≠ Component.root, p.components = directory.components ++ [c] := by
  unfold isInside
  constructor
  · intro h
    split at h
    · next q hq =>
      obtain ⟨c, hc, hroot⟩ := parent?_isSome_iff.1 (hq ▸ rfl : p.parent?.isSome)
      refine ⟨c, hroot, ?_⟩
      rw [← components_eq_of_same h, (components_of_parent? hq).1]
      exact (List.dropLast_append_getLast? c hc).symm
    · cases h
  · rintro ⟨c, hroot, hc⟩
    have hparent : p.parent?.isSome := parent?_isSome_iff.2 ⟨c, by rw [hc, List.getLast?_concat]; rfl, hroot⟩
    obtain ⟨q, hq⟩ := Option.isSome_iff_exists.1 hparent
    rw [hq]
    refine decide_eq_true ?_
    rw [(components_of_parent? hq).1, hc, List.dropLast_concat]

/-- The files directly inside a directory are listed in the order in which they are kept. -/
theorem list_inside (h : ∃ p ∈ m.paths, directory.isPrefixOf p ∧ ¬ p.same directory) :
    Storage.list m directory = .ok ((m.files.filter fun file => isInside directory file.1).map Prod.fst) := by
  have hbelow : ∀ p, (isInside directory p && (directory.isPrefixOf p && !p.same directory)) =
      isInside directory p := by
    intro p
    refine Bool.and_eq_left_iff_imp.2 fun hp => ?_
    obtain ⟨c, -, hc⟩ := isInside_iff.1 hp
    have hbegins : directory.isPrefixOf p := by
      rw [Path.isPrefixOf, List.isPrefixOf_iff_prefix, hc]
      exact List.prefix_append _ _
    have hother : p.same directory = false := decide_eq_false (by simp [hc])
    rw [hbegins, hother]
    rfl
  have hne : (m.below directory).isEmpty = false := by
    obtain ⟨p, hp, hinside⟩ := h
    rw [List.isEmpty_eq_false_iff_exists_mem]
    exact ⟨p, mem_below_iff.2 ⟨hp, hinside⟩⟩
  have hfilter : (m.below directory).filter (isInside directory) =
      (m.files.filter fun file => isInside directory file.1).map Prod.fst := by
    rw [below, List.filter_filter, List.filter_map]
    exact congrArg (List.map Prod.fst) (List.filter_congr fun file _ => hbelow file.1)
  simp only [Storage.list, hne, hfilter]
  rfl

/-! ## Trees -/

/-- Files in order, with names that fit, and no file above another one. -/
structure IsTree (m : MemoryStore) : Prop where
  ascending : m.Ascending
  ordinary : ∀ p ∈ m.paths, p.Ordinary
  fits : ∀ p ∈ m.paths, ∀ s ∈ p.names, Disk.Fits s
  apart : ∀ p ∈ m.paths, ∀ q ∈ m.paths, p.isPrefixOf q → p.same q

/-- No other file is above the path or below it. -/
def KeepsTree (m : MemoryStore) (p : Path) : Prop :=
  ∀ q ∈ m.paths, (p.isPrefixOf q → p.same q) ∧ (q.isPrefixOf p → q.same p)

instance (m : MemoryStore) (p : Path) : Decidable (m.KeepsTree p) := inferInstanceAs (Decidable (∀ q ∈ _, _))

/-- There is no file above a path that keeps the tree. -/
theorem get?_eq_none_of_isPrefixOf (hkeeps : m.KeepsTree p) (hq : q.isPrefixOf p) (hother : ¬ p.same q) :
    m.get? q = none := by
  refine get?_eq_none_iff.2 fun r hr hsame => hother ?_
  have hrp : r.same p := by
    refine (hkeeps r hr).2 ?_
    rw [isPrefixOf, components_eq_of_same hsame]
    exact hq
  rw [same, ← components_eq_of_same hsame, components_eq_of_same hrp]
  exact decide_eq_true rfl

namespace IsTree

variable (h : m.IsTree)
include h

theorem insert (hp : p.Ordinary) (hfits : ∀ s ∈ p.names, Disk.Fits s) (hkeeps : m.KeepsTree p) (t : Text) :
    (m.insert p t).IsTree where
  ascending := h.ascending.insert p t
  ordinary q hq := by
    rcases mem_paths_insert hq with rfl | hq
    · exact hp
    · exact h.ordinary q hq
  fits q hq := by
    rcases mem_paths_insert hq with rfl | hq
    · exact hfits
    · exact h.fits q hq
  apart q hq r hr := by
    rcases mem_paths_insert hq with hq | hq <;> rcases mem_paths_insert hr with hr | hr
    · rw [hq, hr]
      exact fun _ => decide_eq_true rfl
    · rw [hq]
      exact (hkeeps r hr).1
    · rw [hr]
      exact (hkeeps q hq).2
    · exact h.apart q hq r hr

/-- There is a directory where files are below. -/
theorem entry?_eq_directory_iff :
    m.entry? p = some .directory ↔ ∃ q ∈ m.paths, p.isPrefixOf q ∧ ¬ q.same p := by
  unfold MemoryStore.entry?
  constructor
  · intro hentry
    split at hentry
    · cases hentry
    · next hnone =>
      split at hentry
      · next hpresent =>
        obtain ⟨q, hq, hinitial⟩ := isPresent_iff.1 hpresent
        exact ⟨q, hq, hinitial, get?_eq_none_iff.1 hnone q hq⟩
      · cases hentry
  · rintro ⟨q, hq, hinitial, hother⟩
    have hnone : m.get? p = none := by
      refine get?_eq_none_iff.2 fun r hr hsame => ?_
      have hrq : r.isPrefixOf q := by
        rw [isPrefixOf, components_eq_of_same hsame]
        exact hinitial
      have hrq := h.apart r hr q hq hrq
      rw [same, components_eq_of_same hsame] at hrq
      exact hother (decide_eq_true (of_decide_eq_true hrq).symm)
    rw [hnone]
    exact if_pos (isPresent_iff.2 ⟨q, hq, hinitial⟩)

/-! ## What is listed in a tree -/

theorem isEmpty_below_iff : (m.below directory).isEmpty ↔ m.entry? directory ≠ some .directory := by
  rw [List.isEmpty_iff, List.eq_nil_iff_forall_not_mem, Ne, h.entry?_eq_directory_iff]
  simp only [mem_below_iff, not_exists]

/-- The files directly inside a directory have one name more. -/
theorem mem_inside_iff (hdirectory : directory.Ordinary) : q ∈ (m.below directory).filter (isInside directory) ↔
    q ∈ m.paths ∧ ∃ s, q.names = directory.names ++ [s] := by
  rw [List.mem_filter, mem_below_iff, and_assoc]
  refine and_congr_right fun hq => ?_
  have hordinary := h.ordinary q hq
  rw [hdirectory.isPrefixOf_iff hordinary, hordinary.same_iff hdirectory, isInside_iff]
  constructor
  · rintro ⟨-, c, -, hc⟩
    exact ⟨c.text, by rw [names, hc, List.map_append]; rfl⟩
  · rintro ⟨s, hs⟩
    have hcomponents : q.components = directory.components ++ [.name s] := by
      rw [hordinary.components_eq, hs, List.map_append, ← hdirectory.components_eq, List.map_singleton]
    exact ⟨⟨by rw [hs]; exact List.prefix_append _ _, by simp [hs]⟩, .name s, by simp, hcomponents⟩

/-- The files below a directory have more names, and are passed over when one of those is hidden. -/
theorem mem_walked_iff (hdirectory : directory.Ordinary) :
    q ∈ (m.below directory).filter (!isHiddenBelow directory ·) ↔
      q ∈ m.paths ∧ ∃ rest ≠ [], q.names = directory.names ++ rest ∧ ∀ s ∈ rest, ¬ Storage.isHidden s := by
  rw [List.mem_filter, mem_below_iff, and_assoc]
  refine and_congr_right fun hq => ?_
  have hordinary := h.ordinary q hq
  rw [hdirectory.isPrefixOf_iff hordinary, hordinary.same_iff hdirectory]
  have hhidden : ∀ rest, q.names = directory.names ++ rest →
      (isHiddenBelow directory q ↔ ∃ s ∈ rest, Storage.isHidden s) := by
    intro rest hrest
    have hinitial := (hdirectory.isPrefixOf_iff hordinary).2 (hrest ▸ List.prefix_append _ _)
    obtain ⟨r, hr, hcomponents⟩ := Option.map_eq_some_iff.1 (hordinary.components_relativeTo? hdirectory hinitial)
    rw [hordinary.components_eq, hrest, List.map_append, ← hdirectory.components_eq, List.drop_left] at hcomponents
    unfold isHiddenBelow
    rw [hr]
    dsimp only
    rw [hcomponents, List.any_map, List.any_eq_true]
    rfl
  constructor
  · rintro ⟨⟨⟨rest, hrest⟩, hother⟩, hshown⟩
    refine ⟨rest, ?_, hrest.symm, fun s hs hs' => ?_⟩
    · rintro rfl
      rw [List.append_nil] at hrest
      exact hother hrest.symm
    · rw [(hhidden rest hrest.symm).2 ⟨s, hs, hs'⟩] at hshown
      cases hshown
  · rintro ⟨rest, hne, hrest, hshown⟩
    refine ⟨⟨by rw [hrest]; exact List.prefix_append _ _, by simpa [hrest] using hne⟩, ?_⟩
    rw [Bool.not_eq_eq_eq_not, Bool.not_true, Bool.eq_false_iff, Ne, hhidden rest hrest]
    rintro ⟨s, hs, hs'⟩
    exact hshown s hs hs'

end IsTree

end MemoryStore

end Pagewright
