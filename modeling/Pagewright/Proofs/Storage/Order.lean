import Mathlib.Data.List.Forall2
import Mathlib.Data.List.Perm.Basic
import Mathlib.Data.List.Sort
import Pagewright.Proofs.Storage.Memory
import Pagewright.Proofs.Text.Order

/-!
# Files in the order of their paths

Paths are put in order component by component, and this is a total order of what paths stand for. So a list of
different files can be put in order in one way only, whatever way the files were found in (`Storage.same_sortPaths`).
A storage in memory keeps its files in order (`MemoryStore.Ascending`).
-/

namespace Pagewright

open Std

/-! ## The order -/

namespace Path

theorem compare_go_eq : compare.go = List.compareLex Component.compare := by
  funext s t
  induction s generalizing t with
  | nil => cases t <;> rfl
  | cons a s ih =>
    cases t with
    | nil => rfl
    | cons b t =>
      rw [compare.go, ih, List.compareLex_cons_cons]

instance : TransCmp Component.compare := by
  have htext : TransCmp fun a b : Component => Text.compare a.text b.text :=
    { eq_swap := OrientedCmp.eq_swap, isLE_trans := TransCmp.isLE_trans }
  show TransCmp (compareLex (compareOn Component.rank) fun a b => Text.compare a.text b.text)
  infer_instance

instance : TransCmp compare.go := by
  rw [compare_go_eq]
  infer_instance

instance : TransCmp compare where
  eq_swap := by
    intro p q
    show compare.go p.components q.components = (compare.go q.components p.components).swap
    exact OrientedCmp.eq_swap
  isLE_trans := by
    intro p q r hpq hqr
    show (compare.go p.components r.components).isLE
    exact TransCmp.isLE_trans hpq hqr

theorem not_same_of_lt {p q : Path} (h : p.compare q = .lt) : ¬ p.same q := by
  intro hsame
  rw [Path.compare_eq_iff.2 hsame] at h
  cases h

end Path

/-! ## Sorting -/

section Sorting

variable {α : Type} {cmp tie : α → α → Ordering} [TransCmp cmp] [ReflCmp tie] {l : List α}

/-- Sorting puts a list in order, and what is equal keeps the order that it had. -/
theorem pairwise_mergeSort (h : l.Pairwise fun a b => (tie a b).isLE) :
    (l.mergeSort fun a b => cmp a b != .gt).Pairwise fun a b => ((cmp a b).then (tie a b)).isLE := by
  have hle : ∀ a b, (cmp a b != .gt) = (cmp a b).isLE := by
    intro a b
    cases cmp a b <;> rfl
  have htrans : ∀ a b c, cmp a b != .gt → cmp b c != .gt → cmp a c != .gt := by
    intro a b c hab hbc
    rw [hle] at hab hbc ⊢
    exact TransCmp.isLE_trans hab hbc
  have htotal : ∀ a b, (cmp a b != .gt || cmp b a != .gt) := by
    intro a b
    rw [@OrientedCmp.eq_swap _ cmp _ b a]
    cases cmp a b <;> rfl
  rw [← List.mergeSort_zipIdx]
  refine List.pairwise_map.2 ?_
  have hsorted := List.pairwise_mergeSort (List.zipIdxLE_trans htrans) (List.zipIdxLE_total htotal) l.zipIdx
  refine hsorted.imp_of_mem ?_
  rintro ⟨a, i⟩ ⟨b, j⟩ ha hb hab
  rw [List.mem_mergeSort, List.mem_zipIdx_iff_getElem?] at ha hb
  dsimp only at ha hb ⊢
  obtain ⟨hi, rfl⟩ := List.getElem?_eq_some_iff.1 ha
  obtain ⟨hj, rfl⟩ := List.getElem?_eq_some_iff.1 hb
  cases hcmp : cmp l[i] l[j] with
  | lt => rfl
  | gt => simp [List.zipIdxLE, hcmp] at hab
  | eq =>
    -- of two that are equal, the positions tell which one came first
    have hswap : cmp l[j] l[i] = .eq := OrientedCmp.eq_symm hcmp
    have hij : i ≤ j := by simpa [List.zipIdxLE, hcmp, hswap] using hab
    rcases hij.lt_or_eq with hlt | rfl
    · exact List.pairwise_iff_getElem.1 h i j hi hj hlt
    · exact Ordering.isLE_of_eq_eq ReflCmp.compare_self

end Sorting

namespace Storage

variable {l m : List Path}

theorem pairwise_sortPaths (l : List Path) : (sortPaths l).Pairwise fun p q => (p.compare q).isLE := by
  have htie : l.Pairwise fun _ _ => Ordering.eq.isLE := List.pairwise_of_forall fun _ _ => rfl
  have hsorted := @pairwise_mergeSort _ Path.compare (fun _ _ => .eq) _ ⟨rfl⟩ _ htie
  simp only [Ordering.then_eq] at hsorted
  exact hsorted

/-- Different paths come one before the other. -/
theorem ascending_sortPaths (h : l.Pairwise fun p q => ¬ p.same q) :
    (sortPaths l).Pairwise fun p q => p.compare q = .lt := by
  have hdistinct : (sortPaths l).Pairwise fun p q => ¬ p.same q :=
    ((List.mergeSort_perm l _).pairwise_iff fun hne hsame => hne (Path.same_comm.1 hsame)).2 h
  refine ((pairwise_sortPaths l).and hdistinct).imp fun {p q} hboth => ?_
  exact (Ordering.isLE_iff_eq_lt_or_eq_eq.1 hboth.1).resolve_right fun heq => hboth.2 (Path.compare_eq_iff.1 heq)

/-- Different files in ascending order are what sorting makes of the same files. -/
theorem same_sortPaths (hl : l.Pairwise fun p q => p.compare q = .lt) (hm : (m.map Path.components).Nodup)
    (h : ∀ cs, cs ∈ l.map Path.components ↔ cs ∈ m.map Path.components) :
    List.Forall₂ (fun p q => p.same q) l (sortPaths m) := by
  have hperm : ((sortPaths m).map Path.components).Perm (m.map Path.components) :=
    (List.mergeSort_perm m _).map Path.components
  have hnodup : (l.map Path.components).Nodup := by
    refine List.pairwise_map.2 (hl.imp fun {p q} hpq heq => ?_)
    rw [Path.compare_eq_iff.2 (decide_eq_true heq)] at hpq
    cases hpq
  have hsame : (l.map Path.components).Perm ((sortPaths m).map Path.components) := by
    rw [List.perm_ext_iff_of_nodup hnodup (hperm.nodup_iff.2 hm)]
    exact fun cs => (h cs).trans hperm.mem_iff.symm
  have hcomponents : l.map Path.components = (sortPaths m).map Path.components := by
    have hascending : (l.map Path.components).Pairwise fun a b => (Path.compare.go a b).isLE := by
      refine List.pairwise_map.2 (hl.imp fun {p q} hpq => ?_)
      show (p.compare q).isLE
      rw [hpq]
      rfl
    refine List.Perm.eq_of_pairwise ?_ hascending (List.pairwise_map.2 (pairwise_sortPaths m)) hsame
    intro a b _ _ hab hba
    exact (Path.compare_go_eq_iff a b).1 (OrientedCmp.isLE_antisymm hab hba)
  have hforall : List.Forall₂ Eq (l.map Path.components) ((sortPaths m).map Path.components) := by
    rw [List.forall₂_eq_eq_eq]
    exact hcomponents
  exact (List.forall₂_map_right_iff.1 (List.forall₂_map_left_iff.1 hforall)).imp fun _ _ => decide_eq_true

end Storage

/-! ## Storages in memory -/

namespace MemoryStore

variable {s s' : MemoryStore} {p q : Path} {t u : Text}

/-- The paths of the files. -/
def paths (s : MemoryStore) : List Path := s.files.map Prod.fst

/-- Every file comes before the ones behind it. -/
def Ascending (s : MemoryStore) : Prop := s.paths.Pairwise fun p q => p.compare q = .lt

/-- Each file can be read. -/
theorem Ascending.get?_of_mem (h : s.Ascending) (hmem : (p, t) ∈ s.files) : s.get? p = some t := by
  obtain ⟨files⟩ := s
  induction files with
  | nil => cases hmem
  | cons file files ih =>
    obtain ⟨q, u⟩ := file
    obtain ⟨hlt, hfiles⟩ := List.pairwise_cons.1 h
    rw [get?_cons]
    rcases List.mem_cons.1 hmem with heq | hmem
    · obtain ⟨rfl, rfl⟩ := Prod.mk.inj heq
      exact if_pos (decide_eq_true rfl)
    · rw [if_neg (Path.not_same_of_lt (hlt p (List.mem_map.2 ⟨_, hmem, rfl⟩))), ih hfiles hmem]

theorem exists_mem_files_of_get? (h : s.get? p = some t) : ∃ q, (q, t) ∈ s.files ∧ q.same p := by
  obtain ⟨⟨q, u⟩, hfind, rfl⟩ := Option.map_eq_some_iff.1 h
  have hsame := List.find?_some hfind
  exact ⟨q, List.mem_of_find?_eq_some hfind, hsame⟩

/-- The files with their texts are those that can be read. -/
theorem Ascending.mem_map_components_iff (h : s.Ascending) (p : Path) (t : Text) :
    (p.components, t) ∈ s.files.map (fun file => (file.1.components, file.2)) ↔ s.get? p = some t := by
  rw [List.mem_map]
  constructor
  · rintro ⟨⟨q, u⟩, hmem, heq⟩
    obtain ⟨hcomponents, rfl⟩ := Prod.mk.inj heq
    rw [← get?_congr (decide_eq_true hcomponents) s, h.get?_of_mem hmem]
  · intro hget
    obtain ⟨q, hmem, hsame⟩ := exists_mem_files_of_get? hget
    exact ⟨(q, t), hmem, by rw [Path.components_eq_of_same hsame]⟩

/-- Two storages from which the same can be read have the same files. -/
theorem Ascending.forall₂_of_get?_eq (h : s.Ascending) (h' : s'.Ascending) (hget : ∀ p, s.get? p = s'.get? p) :
    List.Forall₂ (fun file file' => file.1.same file'.1 ∧ file.2 = file'.2) s.files s'.files := by
  let plain (file : Path × Text) : List Path.Component × Text := (file.1.components, file.2)
  have hbefore : ∀ {m : MemoryStore}, m.Ascending →
      (m.files.map plain).Pairwise fun a b => Path.compare.go a.1 b.1 = .lt := fun hm =>
    List.pairwise_map.2 (List.pairwise_map.1 hm)
  have hnodup : ∀ {m : MemoryStore}, m.Ascending → (m.files.map plain).Nodup := by
    have hself : ∀ l, Path.compare.go l l = .eq := fun l => ReflCmp.compare_self
    intro m hm
    refine (hbefore hm).imp fun {a b} hlt heq => ?_
    rw [heq, hself] at hlt
    cases hlt
  have hsub : ∀ {m m' : MemoryStore}, m.Ascending → m'.Ascending → (∀ p, m.get? p = m'.get? p) →
      m.files.map plain ⊆ m'.files.map plain := by
    intro m m' hm hm' hsame a ha
    obtain ⟨⟨p, t⟩, -, rfl⟩ := List.mem_map.1 ha
    exact (hm'.mem_map_components_iff p t).2 ((hsame p).symm.trans ((hm.mem_map_components_iff p t).1 ha))
  have hperm : (s.files.map plain).Perm (s'.files.map plain) :=
    (List.perm_ext_iff_of_nodup (hnodup h) (hnodup h')).2 fun a =>
      ⟨fun ha => hsub h h' hget ha, fun ha => hsub h' h (fun p => (hget p).symm) ha⟩
  have heq : s.files.map plain = s'.files.map plain := by
    refine List.Perm.eq_of_pairwise ?_ (hbefore h) (hbefore h') hperm
    intro a b _ _ hab hba
    exact absurd hba (OrientedCmp.not_lt_of_lt hab)
  have hforall : List.Forall₂ Eq (s.files.map plain) (s'.files.map plain) := by
    rw [List.forall₂_eq_eq_eq]
    exact heq
  refine (List.forall₂_map_right_iff.1 (List.forall₂_map_left_iff.1 hforall)).imp fun file file' hplain => ?_
  obtain ⟨hcomponents, htext⟩ := Prod.mk.inj hplain
  exact ⟨decide_eq_true hcomponents, htext⟩

/-- A file that is put in its place brings no path but its own. -/
theorem mem_paths_insert (h : q ∈ (s.insert p t).paths) : q = p ∨ q ∈ s.paths := by
  obtain ⟨files⟩ := s
  unfold paths at h ⊢
  unfold MemoryStore.insert at h
  dsimp only at h ⊢
  induction files with
  | nil => exact Or.inl (List.mem_singleton.1 h)
  | cons file files ih =>
    obtain ⟨r, u⟩ := file
    unfold insertFile at h
    split at h
    · exact List.mem_cons.1 h
    · exact Or.inr h
    · rcases List.mem_cons.1 h with rfl | h
      · exact Or.inr List.mem_cons_self
      · exact (ih h).imp_right (List.mem_cons_of_mem r)

/-- A file that is put in its place leaves all others where they are. -/
theorem mem_files_insert_iff (h : ¬ p.same q) : (q, u) ∈ (s.insert p t).files ↔ (q, u) ∈ s.files := by
  have hne : (q, u) ≠ (p, t) := fun heq => h (decide_eq_true (congrArg (Path.components ·.1) heq).symm)
  obtain ⟨files⟩ := s
  show (q, u) ∈ insertFile p t files ↔ (q, u) ∈ files
  induction files with
  | nil => simpa [insertFile] using hne
  | cons file files ih =>
    obtain ⟨r, v⟩ := file
    unfold insertFile
    split
    · rw [List.mem_cons, or_iff_right hne]
    · next heq =>
      have hsame := Path.compare_eq_iff.1 heq
      have hother : ∀ w : Text, (q, u) ≠ (r, w) := fun w hqr => h ((Prod.mk.inj hqr).1 ▸ hsame)
      rw [List.mem_cons, List.mem_cons, or_iff_right (hother t), or_iff_right (hother v)]
    · rw [List.mem_cons, List.mem_cons, ih]

theorem Ascending.insert (h : s.Ascending) (p : Path) (t : Text) : (s.insert p t).Ascending := by
  obtain ⟨files⟩ := s
  unfold Ascending paths at h ⊢
  show ((insertFile p t files).map Prod.fst).Pairwise _
  induction files with
  | nil => exact List.pairwise_singleton _ _
  | cons file files ih =>
    obtain ⟨r, u⟩ := file
    have hfirst := (List.pairwise_cons.1 h).1
    have hrest := (List.pairwise_cons.1 h).2
    unfold insertFile
    split
    · next hlt =>
      refine List.pairwise_cons.2 ⟨fun q hq => ?_, h⟩
      rcases List.mem_cons.1 hq with rfl | hq
      · exact hlt
      · exact TransCmp.lt_trans hlt (hfirst q hq)
    · exact h
    · next hgt =>
      refine List.pairwise_cons.2 ⟨fun q hq => ?_, ih hrest⟩
      rcases mem_paths_insert (s := ⟨files⟩) hq with rfl | hq
      · exact OrientedCmp.lt_of_gt hgt
      · exact hfirst q hq

end MemoryStore

end Pagewright
