import Mathlib.Data.List.Nodup
import Pagewright.Proofs.Storage.Confinement

/-!
# What is listed on a disk

A disk with one entry for each place (`Disk.Keyed`) lists in a directory what is there, each name once
(`Disk.Keyed.mem_children_iff`). So the files below a directory are told by the names between the two
(`Disk.restsBelow`): a file is found when no name is hidden and all but the last are directories
(`Disk.Keyed.mem_restsBelow_iff`), and it is found once.
-/

namespace Pagewright

namespace Disk

variable {d : Disk} {place q : Place} {rest : List Text} {s : Text} {x : DiskEntry}

/-! ## One entry for each place -/

def Keyed (d : Disk) : Prop := (d.entries.map Prod.fst).Nodup

theorem mem_keys_go {l : List (Place × DiskEntry)} (h : q ∈ (put.go place x l).map Prod.fst) :
    q = place ∨ q ∈ l.map Prod.fst := by
  induction l with
  | nil => exact Or.inl (List.mem_singleton.1 h)
  | cons entry l ih =>
    obtain ⟨r, y⟩ := entry
    rw [put.go] at h
    split at h
    · exact Or.inr h
    · rcases List.mem_cons.1 h with rfl | h
      · exact Or.inr List.mem_cons_self
      · exact (ih h).imp_right (List.mem_cons_of_mem r)

theorem Keyed.put (h : d.Keyed) (place : Place) (x : DiskEntry) : (d.put place x).Keyed := by
  obtain ⟨l, w⟩ := d
  show ((put.go place x l).map Prod.fst).Nodup
  unfold Keyed at h
  dsimp only at h
  induction l with
  | nil => exact List.pairwise_singleton _ place
  | cons entry l ih =>
    obtain ⟨r, y⟩ := entry
    obtain ⟨hr, hl⟩ := List.nodup_cons.1 h
    rw [put.go]
    split
    · exact h
    · next hne =>
      refine List.nodup_cons.2 ⟨fun hmem => ?_, ih hl⟩
      rcases mem_keys_go hmem with heq | hmem
      · exact hne heq
      · exact hr hmem

theorem Keyed.mem_entries_iff (h : d.Keyed) (hne : place ≠ []) :
    (place, x) ∈ d.entries ↔ d.entry? place = some x := by
  obtain ⟨l, w⟩ := d
  unfold Keyed at h
  unfold entry?
  rw [if_neg (by simpa using hne)]
  dsimp only at h ⊢
  induction l with
  | nil => simp
  | cons entry l ih =>
    obtain ⟨r, y⟩ := entry
    obtain ⟨hr, hl⟩ := List.nodup_cons.1 h
    by_cases heq : place = r
    · subst heq
      rw [List.lookup_cons, beq_self_eq_true, List.mem_cons, Prod.mk.injEq]
      have hmem : (place, x) ∉ l := fun hmem => hr (List.mem_map.2 ⟨_, hmem, rfl⟩)
      simp [hmem, eq_comm]
    · rw [List.lookup_cons, beq_eq_false_iff_ne.2 heq, List.mem_cons, Prod.mk.injEq, ih hl]
      simp [heq]

/-- What is listed in a directory is what is there. -/
theorem Keyed.mem_children_iff (h : d.Keyed) :
    (s, x) ∈ d.children place ↔ d.entry? (place ++ [s]) = some x := by
  rw [← h.mem_entries_iff (by simp)]
  constructor
  · exact mem_entries_of_mem_children
  · intro hmem
    refine List.mem_filterMap.2 ⟨_, hmem, ?_⟩
    simp

theorem Keyed.nodup_children (h : d.Keyed) (place : Place) : ((d.children place).map Prod.fst).Nodup := by
  have hsublist : ((d.children place).map fun child => place ++ [child.1]).Sublist (d.entries.map Prod.fst) := by
    unfold children
    induction d.entries with
    | nil => exact List.Sublist.slnil
    | cons entry l ih =>
      obtain ⟨r, y⟩ := entry
      rw [List.filterMap_cons]
      dsimp only
      split
      · exact ih.cons r
      · next child hchild =>
        split at hchild
        · next last hlast =>
          split at hchild
          · next hplace =>
            obtain rfl := Option.some.inj hchild
            obtain ⟨front, rfl⟩ := List.getLast?_eq_some_iff.1 hlast
            rw [List.dropLast_concat] at hplace
            subst hplace
            exact ih.cons_cons _
          · cases hchild
        · cases hchild
  have hnodup := List.Nodup.sublist hsublist h
  refine List.pairwise_map.2 ((List.pairwise_map.1 hnodup).imp fun hne heq => hne ?_)
  rw [heq]

/-! ## Files inside a directory -/

/-- The names of the files directly inside a place. -/
def filesIn (d : Disk) (place : Place) : List Text :=
  (d.children place).filterMap fun (s, x) =>
    match x with
    | .file _ => some s
    | .directory => none

theorem Keyed.mem_filesIn_iff (h : d.Keyed) :
    s ∈ d.filesIn place ↔ ∃ content, d.entry? (place ++ [s]) = some (.file content) := by
  rw [filesIn, List.mem_filterMap]
  constructor
  · rintro ⟨⟨u, x⟩, hchild, hfile⟩
    cases x with
    | directory => cases hfile
    | file content =>
      obtain rfl := Option.some.inj hfile
      exact ⟨content, h.mem_children_iff.1 hchild⟩
  · rintro ⟨content, hfile⟩
    exact ⟨(s, .file content), h.mem_children_iff.2 hfile, rfl⟩

theorem Keyed.nodup_filesIn (h : d.Keyed) (place : Place) : (d.filesIn place).Nodup := by
  refine List.pairwise_filterMap.2 ((List.pairwise_map.1 (h.nodup_children place)).imp ?_)
  rintro ⟨a, x⟩ ⟨b, y⟩ hne u hu v hv rfl
  cases x with
  | directory => cases hu
  | file content =>
    cases y with
    | directory => cases hv
    | file content' => exact hne ((Option.some.inj hu).trans (Option.some.inj hv).symm)

/-- The files directly inside a place, below a path. -/
theorem map_filesIn (d : Disk) (place : Place) (base : Path) :
    (d.filesIn place).map base.joinText = (d.children place).filterMap fun (s, x) =>
      match x with
      | .file _ => some (base.joinText s)
      | .directory => none := by
  rw [filesIn, List.map_filterMap]
  congr 1
  funext child
  obtain ⟨s, x⟩ := child
  cases x <;> rfl

/-! ## Files below a directory -/

/-- The names that lead from a place to the files below it, without hidden ones; at most so many. -/
def restsBelow (d : Disk) : ℕ → Place → List (List Text)
  | 0, _ => []
  | n + 1, place => (d.children place).flatMap fun (s, x) =>
      if Storage.isHidden s then []
      else match x with
        | .directory => (restsBelow d n (place ++ [s])).map (s :: ·)
        | .file _ => [[s]]

theorem filesBelow_eq (n : ℕ) (place : Place) (base : Path) :
    d.filesBelow n place base = (d.restsBelow n place).map (List.foldl Path.joinText base) := by
  induction n generalizing place base with
  | zero => rfl
  | succ n ih =>
    rw [filesBelow, restsBelow, List.map_flatMap]
    congr 1
    funext child
    obtain ⟨s, x⟩ := child
    dsimp only
    split
    · rfl
    · cases x with
      | directory =>
        dsimp only
        rw [ih, List.map_map]
        rfl
      | file content => rfl

/-- The first name on the way to a file is that of the file, or of a directory behind which the way goes on. -/
theorem Keyed.mem_restsBelow_succ_iff (h : d.Keyed) {n : ℕ} :
    rest ∈ d.restsBelow (n + 1) place ↔ ∃ s r, rest = s :: r ∧ ¬ Storage.isHidden s ∧
      ((r = [] ∧ ∃ content, d.entry? (place ++ [s]) = some (.file content)) ∨
        (d.entry? (place ++ [s]) = some .directory ∧ r ∈ d.restsBelow n (place ++ [s]))) := by
  rw [restsBelow, List.mem_flatMap]
  constructor
  · rintro ⟨⟨s, x⟩, hchild, hrest⟩
    rw [h.mem_children_iff] at hchild
    dsimp only at hrest
    split at hrest
    · cases hrest
    · next hhidden =>
      cases x with
      | directory =>
        obtain ⟨r, hr, rfl⟩ := List.mem_map.1 hrest
        exact ⟨s, r, rfl, hhidden, Or.inr ⟨hchild, hr⟩⟩
      | file content =>
        obtain rfl := List.mem_singleton.1 hrest
        exact ⟨s, [], rfl, hhidden, Or.inl ⟨rfl, content, hchild⟩⟩
  · rintro ⟨s, r, rfl, hhidden, ⟨rfl, content, hfile⟩ | ⟨hdirectory, hr⟩⟩
    · refine ⟨(s, .file content), h.mem_children_iff.2 hfile, ?_⟩
      dsimp only
      rw [if_neg hhidden]
      exact List.mem_singleton_self _
    · refine ⟨(s, .directory), h.mem_children_iff.2 hdirectory, ?_⟩
      dsimp only
      rw [if_neg hhidden]
      exact List.mem_map_of_mem hr

/-- Directories above the end of a way: at its first name and above the end of the rest. -/
theorem above_cons_iff {r : List Text} (hr : r ≠ []) :
    (∀ k, k <+: s :: r → k ≠ [] → k ≠ s :: r → d.entry? (place ++ k) = some .directory) ↔
      d.entry? (place ++ [s]) = some .directory ∧
        ∀ k, k <+: r → k ≠ [] → k ≠ r → d.entry? (place ++ [s] ++ k) = some .directory := by
  constructor
  · intro habove
    refine ⟨habove [s] (List.prefix_append [s] r) (by simp) (by simpa [eq_comm] using hr), fun k hk _ hkne => ?_⟩
    rw [List.append_assoc]
    exact habove (s :: k) (List.cons_prefix_cons.2 ⟨rfl, hk⟩) (by simp) (by simpa using hkne)
  · rintro ⟨hfirst, hrest⟩ k hk hknil hkne
    obtain ⟨u, k, rfl⟩ := List.exists_cons_of_ne_nil hknil
    obtain ⟨rfl, hkr⟩ := List.cons_prefix_cons.1 hk
    by_cases hnil : k = []
    · rw [hnil, hfirst]
    · rw [← List.singleton_append, ← List.append_assoc]
      exact hrest k hkr hnil fun heq => hkne (congrArg _ heq)

/-- The way to a file leads through directories, and no name on it is hidden. -/
theorem Keyed.mem_restsBelow_iff (h : d.Keyed) {n : ℕ} :
    rest ∈ d.restsBelow n place ↔ rest ≠ [] ∧ rest.length ≤ n ∧ (∀ s ∈ rest, ¬ Storage.isHidden s) ∧
      (∀ k, k <+: rest → k ≠ [] → k ≠ rest → d.entry? (place ++ k) = some .directory) ∧
      ∃ content, d.entry? (place ++ rest) = some (.file content) := by
  induction n generalizing place rest with
  | zero =>
    refine iff_of_false List.not_mem_nil ?_
    rintro ⟨hne, hlength, -⟩
    exact hne (List.length_eq_zero_iff.1 (Nat.le_zero.1 hlength))
  | succ n ih =>
    rw [h.mem_restsBelow_succ_iff]
    constructor
    · rintro ⟨s, r, rfl, hhidden, ⟨rfl, hfile⟩ | ⟨hdirectory, hr⟩⟩
      · refine ⟨List.cons_ne_nil s [], Nat.succ_le_succ (Nat.zero_le n), by simpa using hhidden, ?_, hfile⟩
        intro k hk hknil hkne
        obtain ⟨u, k, rfl⟩ := List.exists_cons_of_ne_nil hknil
        obtain ⟨rfl, hknil⟩ := List.cons_prefix_cons.1 hk
        exact absurd (by rw [List.prefix_nil.1 hknil]) hkne
      · obtain ⟨hne, hlength, hnames, habove, hfile⟩ := ih.1 hr
        rw [List.append_assoc] at hfile
        exact ⟨List.cons_ne_nil s r, Nat.succ_le_succ hlength, List.forall_mem_cons.2 ⟨hhidden, hnames⟩,
          (above_cons_iff hne).2 ⟨hdirectory, habove⟩, hfile⟩
    · rintro ⟨hne, hlength, hnames, habove, hfile⟩
      obtain ⟨s, r, rfl⟩ := List.exists_cons_of_ne_nil hne
      obtain ⟨hhidden, hnames⟩ := List.forall_mem_cons.1 hnames
      refine ⟨s, r, rfl, hhidden, ?_⟩
      by_cases hr : r = []
      · subst hr
        exact Or.inl ⟨rfl, hfile⟩
      · obtain ⟨hdirectory, habove⟩ := (above_cons_iff hr).1 habove
        refine Or.inr ⟨hdirectory, ih.2 ⟨hr, Nat.le_of_succ_le_succ hlength, hnames, habove, ?_⟩⟩
        rwa [List.append_assoc]

theorem Keyed.nodup_restsBelow (h : d.Keyed) (n : ℕ) (place : Place) : (d.restsBelow n place).Nodup := by
  induction n generalizing place with
  | zero => exact List.nodup_nil
  | succ n ih =>
    rw [restsBelow, List.nodup_flatMap]
    constructor
    · rintro ⟨s, x⟩ -
      dsimp only
      split
      · exact List.nodup_nil
      · cases x with
        | directory => exact (ih _).map fun _ _ heq => (List.cons.inj heq).2
        | file content => exact List.nodup_singleton [s]
    · -- what is found in different children begins with different names
      have hhead : ∀ (s : Text) (x : DiskEntry) (r : List Text), r ∈ (if Storage.isHidden s then []
          else match x with
            | .directory => (restsBelow d n (place ++ [s])).map (s :: ·)
            | .file _ => [[s]]) → r.head? = some s := by
        intro s x r hr
        split at hr
        · cases hr
        · cases x with
          | directory =>
            obtain ⟨r, -, rfl⟩ := List.mem_map.1 hr
            rfl
          | file content =>
            rw [List.mem_singleton.1 hr]
            rfl
      refine (List.pairwise_map.1 (h.nodup_children place)).imp fun {a b} hne => ?_
      intro r ha hb
      refine hne (Option.some.inj ?_)
      rw [← hhead a.1 a.2 r ha, hhead b.1 b.2 r hb]

theorem le_foldl_max (l : List (Place × DiskEntry)) (n : ℕ) :
    n ≤ l.foldl (fun n (r, _) => max n r.length) n ∧
      ∀ r ∈ l, r.1.length ≤ l.foldl (fun n (r, _) => max n r.length) n := by
  induction l generalizing n with
  | nil => exact ⟨le_rfl, by simp⟩
  | cons entry l ih =>
    obtain ⟨hstart, hrest⟩ := ih (max n entry.1.length)
    refine ⟨(le_max_left _ _).trans hstart, List.forall_mem_cons.2 ⟨?_, hrest⟩⟩
    exact (le_max_right _ _).trans hstart

theorem length_le_depth (h : (q, x) ∈ d.entries) : q.length ≤ d.depth := (le_foldl_max d.entries 0).2 (q, x) h

end Disk

end Pagewright
