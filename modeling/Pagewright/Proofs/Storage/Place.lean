import Pagewright.Proofs.Site.Lookup
import Pagewright.Storage.Disk

/-!
# The places that paths lead to

A disk follows a path segment by segment and may fail on the way. Where it does not fail, the place in the
end is a matter of the components alone (`Disk.resolve_eq_placeOf`), and a path that is joined to a directory
has the components of the directory in front of its own (`Path.components_join`). So a path without a step
upwards leads to a place at or below the directory (`Path.prefix_lead`).
-/

namespace Pagewright

namespace Path

variable {p base : Path} {place : Place} {c : Component} {cs : List Component}

/-! ## Components -/

/-- The components that segments stand for. -/
def componentsOf (segments : List Text) : List Component := (segments.filter (!isFiller ·)).map ofSegment

theorem componentsOf_append (l m : List Text) : componentsOf (l ++ m) = componentsOf l ++ componentsOf m := by
  unfold componentsOf
  rw [List.filter_append, List.map_append]

theorem componentsOf_cons_of_isFiller {s : Text} (h : isFiller s) (l : List Text) :
    componentsOf (s :: l) = componentsOf l := by
  unfold componentsOf
  rw [List.filter_cons_of_neg (by simp [h])]

theorem componentsOf_cons {s : Text} (h : isFiller s = false) (l : List Text) :
    componentsOf (s :: l) = ofSegment s :: componentsOf l := by
  unfold componentsOf
  rw [List.filter_cons_of_pos (by simp [h]), List.map_cons]

theorem root_notMem_componentsOf (l : List Text) : Component.root ∉ componentsOf l := by
  intro h
  obtain ⟨s, -, hs⟩ := List.mem_map.1 h
  unfold ofSegment at hs
  split at hs <;> cases hs

/-- A text that begins with neither a separator nor a single dot. -/
structure IsPlain (t : Text) : Prop where
  head : t.head? ≠ some '/'
  ne_dot : t ≠ ['.']
  not_below : ∀ r, t ≠ '.' :: '/' :: r

/-- What a path can begin with. -/
theorem text_cases (t : Text) :
    (∃ r, t = '/' :: r) ∨ t = ['.'] ∨ (∃ r, t = '.' :: '/' :: r) ∨ IsPlain t := by
  by_cases habs : t.head? = some '/'
  · exact Or.inl (List.head?_eq_some_iff.1 habs)
  by_cases hdot : t = ['.']
  · exact Or.inr (Or.inl hdot)
  by_cases hbelow : ∃ r, t = '.' :: '/' :: r
  · exact Or.inr (Or.inr (Or.inl hbelow))
  · exact Or.inr (Or.inr (Or.inr ⟨habs, hdot, fun r hr => hbelow ⟨r, hr⟩⟩))

theorem components_absolute (r : Text) :
    (Path.mk ('/' :: r)).components = .root :: componentsOf (Text.split '/' r) := rfl

theorem components_dot : (Path.mk ['.']).components = [.current] := rfl

theorem components_below (r : Text) :
    (Path.mk ('.' :: '/' :: r)).components = .current :: componentsOf (Text.split '/' r) := by
  have h : (Path.mk ('.' :: '/' :: r)).components = .current :: componentsOf ([] :: Text.split '/' r) := rfl
  rw [h, componentsOf_cons_of_isFiller rfl]

theorem components_of_isPlain {t : Text} (h : IsPlain t) :
    (Path.mk t).components = componentsOf (Text.split '/' t) := by
  unfold components segments
  split
  · next r heq => exact absurd (by rw [show t = '/' :: r from heq]; rfl) h.head
  · next heq => exact absurd heq h.ne_dot
  · next r heq => exact absurd heq (h.not_below r)
  · rfl

/-- A path that is not written from the root has no such component. -/
theorem root_notMem_components (h : p.isAbsolute = false) : Component.root ∉ p.components := by
  obtain ⟨t⟩ := p
  rcases text_cases t with ⟨r, rfl⟩ | rfl | ⟨r, rfl⟩ | hplain
  · cases h
  · decide
  · rw [components_below, List.mem_cons, not_or]
    exact ⟨by decide, root_notMem_componentsOf _⟩
  · rw [components_of_isPlain hplain]
    exact root_notMem_componentsOf _

private theorem isPlain_append {u : Text} (hu : u ≠ []) (h : IsPlain u) (t : Text) : IsPlain (u ++ '/' :: t) := by
  obtain ⟨c, u, rfl⟩ := List.exists_cons_of_ne_nil hu
  refine ⟨h.head, by simp, fun r hr => ?_⟩
  rw [List.cons_append, List.cons.injEq] at hr
  obtain ⟨rfl, hr⟩ := hr
  cases u with
  | nil => exact h.ne_dot rfl
  | cons d u => exact h.not_below u (by rw [(List.cons.inj hr).1])

/-- The components of a path that goes on behind a directory. -/
theorem components_append_separator {u : Text} (hu : u ≠ []) (t : Text) :
    (Path.mk (u ++ '/' :: t)).components = (Path.mk u).components ++ componentsOf (Text.split '/' t) := by
  rcases text_cases u with ⟨r, rfl⟩ | rfl | ⟨r, rfl⟩ | hplain
  · rw [List.cons_append, components_absolute, components_absolute, Text.split_append_sep, componentsOf_append]
    rfl
  · rw [components_dot]
    exact components_below t
  · rw [List.cons_append, List.cons_append, components_below, components_below, Text.split_append_sep,
      componentsOf_append]
    rfl
  · rw [components_of_isPlain (isPlain_append hu hplain t), components_of_isPlain hplain,
      Text.split_append_sep, componentsOf_append]

/-- A separator at the end does not count. -/
theorem components_append_singleton {u : Text} (hu : u ≠ []) :
    (Path.mk (u ++ ['/'])).components = (Path.mk u).components := by
  have h : componentsOf (Text.split '/' []) = [] := rfl
  rw [components_append_separator hu, h, List.append_nil]

/-- A relative path that is joined to a directory keeps its components, a dot at its start aside. -/
theorem components_join (hp : p.isAbsolute = false) :
    ∃ rest, (base.join p).components = base.components ++ rest ∧ rest ⊆ p.components := by
  obtain ⟨u⟩ := base
  obtain ⟨t⟩ := p
  have htail : componentsOf (Text.split '/' t) ⊆ (Path.mk t).components := by
    rcases text_cases t with ⟨r, rfl⟩ | rfl | ⟨r, rfl⟩ | hplain
    · cases hp
    · exact List.nil_subset _
    · have h : componentsOf (Text.split '/' ('.' :: '/' :: r)) = componentsOf (Text.split '/' r) := by
        have hsplit : Text.split '/' ('.' :: '/' :: r) = ['.'] :: Text.split '/' r := rfl
        rw [hsplit, componentsOf_cons_of_isFiller rfl]
      rw [h, components_below]
      exact List.subset_cons_self _ _
    · rw [components_of_isPlain hplain]
      exact List.Subset.refl _
  unfold join
  rw [hp, if_neg (by decide)]
  split
  · next hend =>
    rw [Bool.or_eq_true, List.isEmpty_iff, decide_eq_true_eq] at hend
    rcases hend with rfl | hlast
    · exact ⟨(Path.mk t).components, rfl, List.Subset.refl _⟩
    · -- the directory brings the separator with it
      obtain ⟨v, rfl⟩ := List.getLast?_eq_some_iff.1 hlast
      by_cases hv : v = []
      · subst hv
        exact ⟨componentsOf (Text.split '/' t), rfl, htail⟩
      · refine ⟨componentsOf (Text.split '/' t), ?_, htail⟩
        rw [components_append_singleton hv, ← components_append_separator hv]
        simp
  · next hend =>
    rw [Bool.or_eq_true, List.isEmpty_iff, decide_eq_true_eq, not_or] at hend
    exact ⟨componentsOf (Text.split '/' t), components_append_separator hend.1 t, htail⟩

/-- A path begins with the components of a directory and has no step upwards behind them. -/
def IsBelow (base p : Path) : Prop := ∃ rest, p.components = base.components ++ rest ∧ .parent ∉ rest

/-! ## Places -/

/-- Where a component leads from a place. -/
def Component.lead (place : Place) : Component → Place
  | .root => []
  | .current => place
  | .parent => place.dropLast
  | .name t => place ++ [t]

/-- Without a step upwards, and not from the root, the way stays below the place where it begins. -/
theorem prefix_lead (hroot : Component.root ∉ cs) (hparent : Component.parent ∉ cs) :
    place <+: cs.foldl Component.lead place := by
  induction cs generalizing place with
  | nil => exact List.prefix_rfl
  | cons c cs ih =>
    rw [List.mem_cons, not_or] at hroot hparent
    have htail : Component.lead place c <+: cs.foldl Component.lead (Component.lead place c) :=
      ih hroot.2 hparent.2
    refine List.IsPrefix.trans ?_ htail
    cases c with
    | root => exact absurd rfl hroot.1
    | current => exact List.prefix_rfl
    | parent => exact absurd rfl hparent.1
    | name t => exact List.prefix_append place [t]

end Path

namespace Disk

variable {d : Disk} {place q : Place} {p : Path}

/-- The place to which a path leads when it can be followed. -/
def placeOf (d : Disk) (p : Path) : Place := p.components.foldl Path.Component.lead d.workingDirectory

/-- Where segments can be followed, they lead where their components do. -/
theorem eq_of_follow {l : List Text} (h : d.follow place l = .ok q) :
    q = (Path.componentsOf l).foldl Path.Component.lead place := by
  induction l generalizing place with
  | nil =>
    rw [follow, Except.ok.injEq] at h
    exact h.symm
  | cons s l ih =>
    rw [follow] at h
    split at h
    · cases h
    · cases h
    · split at h
      · next hfiller =>
        rw [Path.componentsOf_cons_of_isFiller hfiller]
        exact ih h
      · next hfiller =>
        rw [Path.componentsOf_cons (by simpa using hfiller), List.foldl_cons]
        split at h
        · next hparent =>
          have hstep : Path.ofSegment s = .parent := if_pos hparent
          rw [hstep]
          exact ih h
        · next hparent =>
          have hstep : Path.ofSegment s = .name s := if_neg hparent
          split at h
          · cases h
          · rw [hstep]
            exact ih h

theorem resolve_eq_placeOf (h : d.resolve p = .ok q) : q = d.placeOf p := by
  obtain ⟨t⟩ := p
  unfold resolve at h
  split at h
  · cases h
  unfold placeOf
  rcases Path.text_cases t with ⟨r, rfl⟩ | rfl | ⟨r, rfl⟩ | hplain
  · exact eq_of_follow h
  · have hdot : d.follow d.workingDirectory [['.']] = .ok q := h
    have hq := eq_of_follow hdot
    rw [Path.componentsOf_cons_of_isFiller rfl] at hq
    exact hq
  · have hbelow : d.follow d.workingDirectory (['.'] :: Text.split '/' r) = .ok q := h
    have hq := eq_of_follow hbelow
    rw [Path.componentsOf_cons_of_isFiller rfl] at hq
    rw [Path.components_below]
    exact hq
  · rw [Path.components_of_isPlain hplain]
    split at h
    · cases h
    · next r heq => exact absurd (by rw [show t = '/' :: r from heq]; rfl) hplain.head
    · exact eq_of_follow h

theorem find_eq_ok {e : DiskEntry} (h : d.find p = .ok (q, e)) :
    q = d.placeOf p ∧ d.entry? q = some e := by
  unfold find at h
  cases hplace : d.resolve p with
  | error err => simp [hplace, bind, Except.bind] at h
  | ok place =>
    rw [hplace] at h
    simp only [bind, Except.bind, pure, Except.pure] at h
    split at h
    · next e' he =>
      rw [Except.ok.injEq, Prod.mk.injEq] at h
      obtain ⟨rfl, rfl⟩ := h
      exact ⟨resolve_eq_placeOf hplace, he⟩
    · cases h

end Disk

end Pagewright
