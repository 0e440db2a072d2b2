import Pagewright.Proofs.Json.Fields
import Pagewright.Proofs.Site.History
import Pagewright.Storage.Memory

/-!
# Sites that are kept in memory

A file that is put into a `MemoryStore` is there, and all others stay as they were
(`MemoryStore.get?_insert`). So a site keeps its files while collections are made, unless it has a file of its
own where a collection goes (`Site.keepsSite_memoryStore`).
-/

namespace Pagewright

/-! ## Order and sameness -/

namespace Path

theorem Component.compare_eq_iff (a b : Component) : a.compare b = .eq ↔ a = b := by
  unfold Component.compare
  rw [Ordering.then_eq_eq, Nat.compare_eq_eq, Text.compare_eq_iff]
  cases a <;> cases b <;> simp [Component.rank, Component.text]

variable {p q : Path}

theorem compare_go_eq_iff (l m : List Component) : compare.go l m = .eq ↔ l = m := by
  induction l generalizing m with
  | nil => cases m <;> simp [compare.go]
  | cons a l ih =>
    cases m with
    | nil => simp [compare.go]
    | cons b m => rw [compare.go, Ordering.then_eq_eq, Component.compare_eq_iff, ih, List.cons.injEq]

theorem compare_eq_iff : p.compare q = .eq ↔ p.same q := by
  unfold Path.compare same
  rw [compare_go_eq_iff, decide_eq_true_iff]

/-- Paths that name the same file cannot be told apart by names. -/
theorem components_eq_of_same (h : p.same q) : p.components = q.components := of_decide_eq_true h

theorem same_comm : p.same q ↔ q.same p := by
  rw [same, same, decide_eq_true_iff, decide_eq_true_iff, eq_comm]

end Path

namespace MemoryStore

/-! ## Putting a file in its place -/

variable {p q directory : Path} {files : List (Path × Text)} {s : MemoryStore}

@[simp] theorem get?_cons (p q : Path) (t : Text) (files : List (Path × Text)) :
    get? ⟨(p, t) :: files⟩ q = if p.same q then some t else get? ⟨files⟩ q := by
  unfold get?
  rw [List.find?_cons]
  dsimp only
  cases p.same q <;> rfl

/-- A file that is put in its place is there, and the others are as they were. -/
theorem get?_insert (s : MemoryStore) (p q : Path) (t : Text) :
    (s.insert p t).get? q = if p.same q then some t else s.get? q := by
  obtain ⟨files⟩ := s
  show get? ⟨insertFile p t files⟩ q = _
  induction files with
  | nil => exact get?_cons p q t []
  | cons file files ih =>
    obtain ⟨r, u⟩ := file
    unfold insertFile
    split
    · exact get?_cons p q t ((r, u) :: files)
    · next h =>
      have heq : p.same q = r.same q := by
        unfold Path.same
        rw [Path.components_eq_of_same (Path.compare_eq_iff.1 h)]
      rw [get?_cons, get?_cons, heq]
      split <;> rfl
    · next h =>
      rw [get?_cons, get?_cons, ih]
      by_cases hr : r.same q
      · -- the file asked for stands before the place of the new one
        have hp : ¬ p.same q := by
          intro hp
          have hsame : p.same r := by
            unfold Path.same
            rw [Path.components_eq_of_same hp, Path.components_eq_of_same hr, decide_eq_true_iff]
          rw [Path.compare_eq_iff.2 hsame] at h
          cases h
        rw [if_pos hr, if_neg hp, if_pos hr]
      · rw [if_neg hr, if_neg hr]

theorem any_insertFile (f : Path → Bool) (hf : ∀ p q, p.same q → f p = f q) (p : Path) (t : Text)
    (files : List (Path × Text)) :
    ((insertFile p t files).any fun (r, _) => f r) = (f p || files.any fun (r, _) => f r) := by
  induction files with
  | nil => rfl
  | cons file files ih =>
    obtain ⟨r, u⟩ := file
    unfold insertFile
    split
    · rfl
    · next h =>
      rw [List.any_cons, List.any_cons, hf p r (Path.compare_eq_iff.1 h), ← Bool.or_assoc, Bool.or_self]
    · rw [List.any_cons, List.any_cons, ih, Bool.or_left_comm]

theorem filter_insertFile {f : Path → Bool} (hp : f p = false) (t : Text) (files : List (Path × Text)) :
    ((insertFile p t files).map Prod.fst).filter f = (files.map Prod.fst).filter f := by
  induction files with
  | nil => exact List.filter_cons_of_neg (by simp [hp])
  | cons file files ih =>
    obtain ⟨r, u⟩ := file
    unfold insertFile
    split
    · exact List.filter_cons_of_neg (by simp [hp])
    · rfl
    · rw [List.map_cons, List.map_cons, List.filter_cons, List.filter_cons, ih]

/-- A new file is in the directories above it only. -/
theorem below_insert (h : directory.isPrefixOf p = false) (t : Text) :
    (s.insert p t).below directory = s.below directory :=
  filter_insertFile (by rw [h]; rfl) t s.files

theorem get?_congr (h : p.same q) (s : MemoryStore) : s.get? p = s.get? q := by
  unfold get? Path.same
  rw [Path.components_eq_of_same h]

theorem isPresent_insert (s : MemoryStore) (p q : Path) (t : Text) :
    Storage.isPresent (s.insert p t) q = (q.isPrefixOf p || Storage.isPresent s q) :=
  any_insertFile q.isPrefixOf (fun p r h => by
    unfold Path.isPrefixOf
    rw [Path.components_eq_of_same h]) p t s.files

theorem read_eq_ok_iff {t : Text} : Storage.read s p = .ok t ↔ s.get? p = some t := by
  simp only [Storage.read]
  cases s.get? p <;> simp

end MemoryStore

/-! ## Where collections go -/

namespace Path

/-- The components of a path below a directory. -/
theorem components_append {s : Text} (hslash : '/' ∉ s) (hfiller : isFiller s = false) (t : Text) :
    (Path.mk (s ++ '/' :: t)).components =
      ofSegment s :: ((Text.split '/' t).filter (!isFiller ·)).map ofSegment := by
  have hsegments : (Path.mk (s ++ '/' :: t)).segments = (none, Text.split '/' (s ++ '/' :: t)) := by
    cases s with
    | nil => cases hfiller
    | cons c s =>
      rw [List.mem_cons, not_or] at hslash
      unfold segments
      split
      · next h => exact absurd (List.cons.inj h).1.symm hslash.1
      · next h => exact absurd (List.cons.inj h).2 (by simp)
      · next h =>
        rw [List.cons_append, List.cons.injEq] at h
        cases s with
        | nil =>
          rw [h.1] at hfiller
          cases hfiller
        | cons d s => exact absurd (List.mem_cons.2 (Or.inl (List.cons.inj h.2).1.symm)) hslash.2
      · rfl
  unfold components
  rw [hsegments, Text.split_append_cons hslash]
  dsimp only
  rw [List.filter_cons_of_pos (by rw [hfiller]; rfl)]
  rfl

end Path

/-! ## Storages with collections -/

namespace Site

theorem components_contentDirectory (name : Text) :
    ∃ cs, (Path.mk (contentCollection name)).components = .name "content".toList :: cs :=
  ⟨_, Path.components_append (s := "content".toList) (by decide) rfl name⟩

theorem components_collectionFile (name : Text) :
    ∃ cs, (SitePath.collectionFile (contentCollection name)).components = .name "collections".toList :: cs :=
  ⟨_, Path.components_append (s := "collections".toList) (by decide) rfl
    (contentCollection name ++ ".json".toList)⟩

/-- A collection is not at a path that begins otherwise. -/
theorem not_isPrefixOf_collectionFile {p : Path} {c : Path.Component} {cs : List Path.Component}
    (hp : p.components = c :: cs) (hc : c ≠ .name "collections".toList) (name : Text) :
    p.isPrefixOf (SitePath.collectionFile (contentCollection name)) = false := by
  obtain ⟨ds, hds⟩ := components_collectionFile name
  unfold Path.isPrefixOf
  rw [hp, hds, List.isPrefixOf_cons_cons, beq_eq_false_iff_ne.2 hc, Bool.false_and]

theorem not_same_collectionFile {p : Path} {c : Path.Component} {cs : List Path.Component}
    (hp : p.components = c :: cs) (hc : c ≠ .name "collections".toList) (name : Text) :
    ¬ (SitePath.collectionFile (contentCollection name)).same p := by
  intro h
  obtain ⟨ds, hds⟩ := components_collectionFile name
  rw [Path.same, hp, hds, decide_eq_true_iff] at h
  exact hc (List.cons.inj h).1.symm

variable {base store : MemoryStore}

theorem Grown.get?_eq (h : Grown base store) {p : Path}
    (hp : ∀ name files, Storage.list base ⟨contentCollection name⟩ = .ok files →
      ¬ (SitePath.collectionFile (contentCollection name)).same p) : store.get? p = base.get? p := by
  induction h with
  | start => rfl
  | write t _ hlist ih => exact ((MemoryStore.get?_insert _ _ _ _).trans (if_neg (hp _ _ hlist))).trans ih

theorem Grown.isPresent_eq (h : Grown base store) {p : Path} {c : Path.Component} {cs : List Path.Component}
    (hp : p.components = c :: cs) (hc : c ≠ .name "collections".toList) :
    Storage.isPresent store p = Storage.isPresent base p := by
  induction h with
  | start => rfl
  | write t _ hlist ih =>
    refine (MemoryStore.isPresent_insert _ _ _ _).trans ?_
    rw [not_isPrefixOf_collectionFile hp hc, Bool.false_or, ih]

theorem Grown.below_eq (h : Grown base store) {p : Path} {c : Path.Component} {cs : List Path.Component}
    (hp : p.components = c :: cs) (hc : c ≠ .name "collections".toList) : store.below p = base.below p := by
  induction h with
  | start => rfl
  | write t _ hlist ih => exact (MemoryStore.below_insert (not_isPrefixOf_collectionFile hp hc _) t).trans ih

end Site

end Pagewright
