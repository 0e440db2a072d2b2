import Pagewright.Proofs.Storage.Confinement
import Pagewright.Proofs.Storage.Names

/-!
# Following names on a disk

Doubled separators and single dots in a path do not change where it leads, but behind the last name they ask for a
directory. Three things live here:

* following segments and following the names among them (`Disk.follow_filter`, `Disk.follow_of_directory`);
* the segments of a path that count (`Path.turns_eq`), for paths that go on behind others (`Path.Extends`);
* a path below a directory leads where its names lead from there (`Disk.resolve_below`), so it finds what is at the
  place of its names (`Disk.find_below_iff`).
-/

namespace Pagewright

open Pagewright.Path

namespace Disk

variable {d e : Disk} {place q home : Place} {l m names : List Text} {s : Text}

/-! ## Following segments -/

theorem follow_append (place : Place) (l m : List Text) :
    d.follow place (l ++ m) = d.follow place l >>= fun q => d.follow q m := by
  induction l generalizing place with
  | nil => rfl
  | cons s l ih =>
    rw [List.cons_append, follow, follow]
    split
    · rfl
    · rfl
    · split
      · exact ih place
      · split
        · exact ih _
        · split
          · rfl
          · exact ih _

theorem follow_cons_eq_ok :
    d.follow place (s :: l) = .ok q ↔ ∃ r, d.follow place [s] = .ok r ∧ d.follow r l = .ok q := by
  rw [show s :: l = [s] ++ l from rfl, follow_append]
  cases d.follow place [s] with
  | error err => exact iff_of_false (fun h => by cases h) (by simp)
  | ok r => simp [bind, Except.bind]

theorem directory_of_follow_cons (h : d.follow place (s :: l) = .ok q) : d.entry? place = some .directory := by
  rw [follow] at h
  split at h
  · cases h
  · cases h
  · next hdirectory => exact hdirectory

/-- A filler stays where it is, if that is a directory. -/
theorem follow_filler (hs : isFiller s) :
    d.follow place [s] = .ok q ↔ q = place ∧ d.entry? place = some .directory := by
  constructor
  · intro h
    have hdirectory := directory_of_follow_cons h
    rw [follow, hdirectory] at h
    simp only [hs, ↓reduceIte, follow, Except.ok.injEq] at h
    exact ⟨h.symm, hdirectory⟩
  · rintro ⟨rfl, hdirectory⟩
    rw [follow, hdirectory]
    simp only [hs, ↓reduceIte, follow]

/-- In front of another segment, a filler makes no difference: the other one fails where the filler does. -/
theorem follow_filler_cons (hs : isFiller s) (hl : l ≠ []) : d.follow place (s :: l) = d.follow place l := by
  obtain ⟨u, l, rfl⟩ := List.exists_cons_of_ne_nil hl
  rw [follow]
  split
  · next hnone => rw [follow, hnone]
  · next hfile => rw [follow, hfile]
  · exact if_pos hs

theorem follow_filter (place : Place) (l : List Text) (s : Text) :
    d.follow place (l ++ [s]) = d.follow place (l.filter (!isFiller ·) ++ [s]) := by
  induction l generalizing place with
  | nil => rfl
  | cons u l ih =>
    cases hu : isFiller u with
    | true =>
      rw [List.filter_cons_of_neg (by simp [hu]), List.cons_append, follow_filler_cons hu (by simp), ih]
    | false =>
      rw [List.filter_cons_of_pos (by simp [hu])]
      show d.follow place ([u] ++ (l ++ [s])) = d.follow place ([u] ++ (l.filter (!isFiller ·) ++ [s]))
      rw [follow_append, follow_append]
      simp only [ih]

/-- Where segments lead, those that count lead as well. -/
theorem follow_filter_of_eq_ok (h : d.follow place l = .ok q) : d.follow place (l.filter (!isFiller ·)) = .ok q := by
  induction l generalizing place with
  | nil => exact h
  | cons s l ih =>
    obtain ⟨r, hr, hrest⟩ := follow_cons_eq_ok.1 h
    cases hs : isFiller s with
    | true =>
      obtain ⟨rfl, -⟩ := (follow_filler hs).1 hr
      rw [List.filter_cons_of_neg (by simp [hs])]
      exact ih hrest
    | false =>
      rw [List.filter_cons_of_pos (by simp [hs])]
      exact follow_cons_eq_ok.2 ⟨r, hr, ih hrest⟩

/-- Where the segments that count lead to a directory, all of them lead there. -/
theorem follow_of_directory (h : d.follow place (l.filter (!isFiller ·)) = .ok q) (hq : d.entry? q = some .directory) :
    d.follow place l = .ok q := by
  induction l generalizing place with
  | nil => exact h
  | cons s l ih =>
    cases hs : isFiller s with
    | true =>
      rw [List.filter_cons_of_neg (by simp [hs])] at h
      refine follow_cons_eq_ok.2 ⟨place, (follow_filler hs).2 ⟨rfl, ?_⟩, ih h⟩
      cases hrest : l.filter (!isFiller ·) with
      | nil =>
        rw [hrest, follow, Except.ok.injEq] at h
        rwa [h]
      | cons u r =>
        rw [hrest] at h
        exact directory_of_follow_cons h
    | false =>
      rw [List.filter_cons_of_pos (by simp [hs])] at h
      obtain ⟨r, hr, h⟩ := follow_cons_eq_ok.1 h
      exact follow_cons_eq_ok.2 ⟨r, hr, ih h⟩

/-! ## Following names -/

/-- A name that a file on a disk can have. -/
structure Fits (s : Text) : Prop where
  size_le : Text.size s ≤ maxNameSize
  zero_notMem : '\x00' ∉ s

instance (s : Text) : Decidable (Fits s) :=
  decidable_of_iff (Text.size s ≤ maxNameSize ∧ '\x00' ∉ s)
    ⟨fun h => ⟨h.1, h.2⟩, fun h => ⟨h.size_le, h.zero_notMem⟩⟩

theorem follow_name (hs : IsName s) (hfits : Fits s) (hplace : d.entry? place = some .directory) :
    d.follow place [s] = .ok (place ++ [s]) := by
  have hsize : ¬ maxNameSize < Text.size s := Nat.not_lt.2 hfits.size_le
  rw [follow, hplace]
  simp only [hs.counts, hs.ne_parent, hsize, ↓reduceIte, Bool.false_eq_true, follow]

theorem eq_of_follow_name (hs : IsName s) (h : d.follow place [s] = .ok q) :
    q = place ++ [s] ∧ d.entry? place = some .directory ∧ Text.size s ≤ maxNameSize := by
  have hdirectory := directory_of_follow_cons h
  have hplace := eq_of_follow h
  rw [componentsOf_of_isName (by simpa using hs)] at hplace
  refine ⟨hplace, hdirectory, Nat.not_lt.1 fun hsize => ?_⟩
  rw [follow, hdirectory] at h
  simp only [hs.counts, hs.ne_parent, hsize, ↓reduceIte, Bool.false_eq_true] at h
  cases h

/-- Names lead from directory to directory. -/
theorem follow_names (hnames : ∀ s ∈ names, IsName s ∧ Fits s)
    (hdirectory : ∀ k, k <+: names → k ≠ names → d.entry? (home ++ k) = some .directory) :
    d.follow home names = .ok (home ++ names) := by
  induction names using List.reverseRecOn with
  | nil => rw [follow, List.append_nil]
  | append_singleton names s ih =>
    have hfront : d.follow home names = .ok (home ++ names) := by
      refine ih (fun u hu => hnames u (List.mem_append_left _ hu)) fun k hk hne => ?_
      refine hdirectory k (hk.trans (List.prefix_append _ _)) ?_
      rintro rfl
      exact hne (hk.eq_of_length_le (by simp))
    obtain ⟨hs, hfits⟩ := hnames s (by simp)
    have hplace := hdirectory names (List.prefix_append _ _) (by simp)
    rw [follow_append, hfront]
    exact (follow_name hs hfits hplace).trans (by rw [List.append_assoc])

theorem eq_of_follow_names (hnames : ∀ s ∈ names, IsName s) (h : d.follow home names = .ok q) :
    q = home ++ names ∧ (∀ k, k <+: names → k ≠ names → d.entry? (home ++ k) = some .directory) ∧
      ∀ s ∈ names, Text.size s ≤ maxNameSize := by
  induction names using List.reverseRecOn generalizing q with
  | nil =>
    rw [follow, Except.ok.injEq] at h
    exact ⟨by rw [List.append_nil, h], fun k hk hne => absurd (List.prefix_nil.1 hk) hne, by simp⟩
  | append_singleton names s ih =>
    rw [follow_append] at h
    cases hfront : d.follow home names with
    | error err =>
      rw [hfront] at h
      cases h
    | ok r =>
      rw [hfront] at h
      obtain ⟨rfl, habove, hsizes⟩ := ih (fun u hu => hnames u (List.mem_append_left _ hu)) hfront
      obtain ⟨rfl, hplace, hsize⟩ := eq_of_follow_name (hnames s (by simp)) h
      refine ⟨List.append_assoc _ _ _, fun k hk hne => ?_, fun u hu => ?_⟩
      · have hk' : k <+: names := (List.prefix_concat_iff.1 hk).resolve_left (by simpa using hne)
        by_cases hlast : k = names
        · rw [hlast, hplace]
        · exact habove k hk' hlast
      · rcases List.mem_append.1 hu with hu | hu
        · exact hsizes u hu
        · rwa [List.mem_singleton.1 hu]

/-- Names that meet no file lead on, or something is missing. -/
theorem follow_names_cases (hnames : ∀ s ∈ names, IsName s ∧ Fits s)
    (hfile : ∀ k content, k <+: names → d.entry? (home ++ k) ≠ some (.file content)) :
    d.follow home names = .ok (home ++ names) ∨ d.follow home names = .error .noEntry := by
  induction names using List.reverseRecOn with
  | nil => exact Or.inl (by rw [follow, List.append_nil])
  | append_singleton names s ih =>
    obtain ⟨hs, hfits⟩ := hnames s (by simp)
    rw [follow_append]
    rcases ih (fun u hu => hnames u (List.mem_append_left _ hu))
      (fun k content hk => hfile k content (hk.trans (List.prefix_append _ _))) with hfront | hfront
    · rw [hfront]
      show d.follow (home ++ names) [s] = _ ∨ d.follow (home ++ names) [s] = _
      cases hplace : d.entry? (home ++ names) with
      | none =>
        right
        rw [follow, hplace]
      | some entry =>
        cases entry with
        | directory => exact Or.inl ((follow_name hs hfits hplace).trans (by rw [List.append_assoc]))
        | file content => exact absurd hplace (hfile names content (List.prefix_append _ _))
    · rw [hfront]
      exact Or.inr rfl

/-- Where directories are kept, segments lead where they led. -/
theorem follow_mono (hkept : ∀ x, d.entry? x = some .directory → e.entry? x = some .directory)
    (h : d.follow place l = .ok q) : e.follow place l = .ok q := by
  induction l generalizing place with
  | nil => exact h
  | cons s l ih =>
    have hdirectory := directory_of_follow_cons h
    rw [follow, hdirectory] at h
    rw [follow, hkept place hdirectory]
    dsimp only at h ⊢
    split
    · next hs => exact ih (by rwa [if_pos hs] at h)
    · next hs =>
      rw [if_neg hs] at h
      split
      · next hparent => exact ih (by rwa [if_pos hparent] at h)
      · next hparent =>
        rw [if_neg hparent] at h
        split
        · next hsize =>
          rw [if_pos hsize] at h
          cases h
        · next hsize => exact ih (by rwa [if_neg hsize] at h)

end Disk

/-! ## Steps of a path -/

namespace Path

variable {p q base : Path} {names : List Text}

def Component.isStep : Component → Bool
  | .root | .current => false
  | .parent | .name _ => true

/-- The segments that are followed. -/
def steps (p : Path) : List Text := Text.split '/' (if p.isAbsolute then p.text.tail else p.text)

/-- The segments that are followed and count. -/
def turns (p : Path) : List Text := p.steps.filter (!isFiller ·)

theorem filter_isStep_componentsOf (l : List Text) :
    (componentsOf l).filter Component.isStep = componentsOf l := by
  refine List.filter_eq_self.2 fun c hc => ?_
  obtain ⟨s, -, rfl⟩ := List.mem_map.1 hc
  unfold ofSegment
  split <;> rfl

/-- The segments that count are those of the components. -/
theorem turns_eq (p : Path) : p.turns = (p.components.filter Component.isStep).map Component.text := by
  obtain ⟨t⟩ := p
  rcases text_cases t with ⟨r, rfl⟩ | rfl | ⟨r, rfl⟩ | hplain
  · rw [components_absolute, List.filter_cons_of_neg (by decide), filter_isStep_componentsOf, map_text_componentsOf]
    rfl
  · rfl
  · have hsteps : (Path.mk ('.' :: '/' :: r)).steps = ['.'] :: Text.split '/' r := rfl
    rw [components_below, List.filter_cons_of_neg (by decide), filter_isStep_componentsOf, map_text_componentsOf,
      turns, hsteps, List.filter_cons_of_neg (by decide)]
  · have habsolute : (Path.mk t).isAbsolute = false := decide_eq_false hplain.head
    rw [components_of_isPlain hplain, filter_isStep_componentsOf, map_text_componentsOf, turns, steps, habsolute,
      if_neg (by decide)]

theorem isAbsolute_iff : p.isAbsolute ↔ .root ∈ p.components := by
  constructor
  · intro h
    obtain ⟨t⟩ := p
    obtain ⟨r, rfl⟩ := List.head?_eq_some_iff.1 (of_decide_eq_true h)
    rw [components_absolute]
    exact List.mem_cons_self
  · intro h
    by_contra hp
    exact root_notMem_components (by simpa using hp) h

theorem endsInName_iff_steps : p.EndsInName ↔ ∃ front s, p.steps = front ++ [s] ∧ isFiller s = false := by
  obtain ⟨t⟩ := p
  have hsplit : ∃ above, Text.split '/' t = above ++ (Path.mk t).steps := by
    by_cases habsolute : (Path.mk t).isAbsolute
    · obtain ⟨r, rfl⟩ := List.head?_eq_some_iff.1 (of_decide_eq_true habsolute)
      exact ⟨[[]], rfl⟩
    · exact ⟨[], by rw [steps, if_neg habsolute]; rfl⟩
  have hne : (Path.mk t).steps ≠ [] := by
    obtain ⟨ps, hps⟩ := Text.split_eq_cons '/' (if (Path.mk t).isAbsolute then t.tail else t)
    exact fun hnil => absurd (hps.symm.trans hnil) (List.cons_ne_nil _ _)
  obtain ⟨above, hsplit⟩ := hsplit
  obtain ⟨front, s, hsteps⟩ := List.eq_nil_or_concat (Path.mk t).steps |>.resolve_left hne
  rw [List.concat_eq_append] at hsteps
  rw [hsteps, ← List.append_assoc] at hsplit
  rw [endsInName_iff hsplit, hsteps]
  constructor
  · exact fun hs => ⟨front, s, rfl, hs⟩
  · rintro ⟨front', s', heq, hs⟩
    rwa [(List.cons.inj (List.append_inj' heq rfl).2).1]

theorem zero_mem_text_iff : '\x00' ∈ p.text ↔ ∃ s ∈ p.turns, '\x00' ∈ s := by
  have htext : '\x00' ∈ p.text ↔ '\x00' ∈ if p.isAbsolute then p.text.tail else p.text := by
    split
    · next habsolute =>
      obtain ⟨r, hr⟩ := List.head?_eq_some_iff.1 (of_decide_eq_true habsolute)
      rw [hr, List.mem_cons]
      exact or_iff_right (by decide)
    · exact Iff.rfl
  have hslash : '\x00' ≠ '/' := by decide
  rw [htext, Text.mem_iff_exists_mem_split hslash]
  constructor
  · rintro ⟨s, hs, hzero⟩
    refine ⟨s, List.mem_filter.2 ⟨hs, ?_⟩, hzero⟩
    rw [Bool.not_eq_eq_eq_not, isFiller, Bool.not_true, Bool.or_eq_false_iff, decide_eq_false_iff_not,
      decide_eq_false_iff_not]
    constructor <;> rintro rfl <;> revert hzero <;> decide
  · rintro ⟨s, hs, hzero⟩
    exact ⟨s, (List.mem_filter.1 hs).1, hzero⟩

/-- A path whose components are those of a directory with names behind them. -/
def Extends (base : Path) (names : List Text) (p : Path) : Prop := p.components = base.components ++ names.map .name

theorem Extends.turns (h : Extends base names p) : p.turns = base.turns ++ names := by
  have hnames : ((names.map Component.name).filter Component.isStep).map Component.text = names := by
    rw [List.filter_eq_self.2 (by simp [Component.isStep]), List.map_map]
    exact List.map_id' _
  rw [turns_eq, turns_eq, h, List.filter_append, List.map_append, hnames]

theorem Extends.isAbsolute_eq (h : Extends base names p) : p.isAbsolute = base.isAbsolute := by
  rw [Bool.eq_iff_iff, isAbsolute_iff, isAbsolute_iff, h, List.mem_append]
  simp

theorem getLast?_concat_name (l : List Component) (names : List Text) (s : Text) :
    (l ++ (names ++ [s]).map Component.name).getLast? = some (.name s) := by
  rw [List.map_append, ← List.append_assoc, List.map_singleton, List.getLast?_concat]

/-- The directory above has the names in front of the last one. -/
theorem Extends.exists_parent? {s : Text} (h : base.Extends (names ++ [s]) p) :
    ∃ q, p.parent? = some q ∧ base.Extends names q ∧ (names ≠ [] → q.EndsInName) := by
  have hlast : p.components.getLast? = some (.name s) := by rw [h, getLast?_concat_name]
  obtain ⟨q, hq⟩ := Path.exists_parent? hlast
  obtain ⟨hcomponents, hends⟩ := components_of_parent? hq
  have hq' : base.Extends names q := by
    rw [Extends, hcomponents, h, List.map_append, ← List.append_assoc, List.map_singleton, List.dropLast_concat]
  refine ⟨q, hq, hq', fun hne => ?_⟩
  obtain ⟨front, u, rfl⟩ := List.eq_nil_or_concat names |>.resolve_left hne
  refine hends u ?_
  rw [hq', List.concat_eq_append, getLast?_concat_name]

end Path

/-! ## Paths below a directory -/

namespace Disk

variable {d : Disk} {p root : Path} {home q : Place} {names : List Text} {entry : DiskEntry}

/-- Where a path begins. -/
def origin (d : Disk) (p : Path) : Place := if p.isAbsolute then [] else d.workingDirectory

theorem resolve_eq (hzero : '\x00' ∉ p.text) (hne : p.text ≠ []) : d.resolve p = d.follow (d.origin p) p.steps := by
  unfold resolve
  rw [if_neg (by simpa using hzero)]
  obtain ⟨t⟩ := p
  dsimp only
  split
  · exact absurd rfl hne
  · rfl
  · next hslash =>
    have habsolute : (Path.mk t).isAbsolute = false := by
      rw [isAbsolute, decide_eq_false_iff_not]
      intro hhead
      obtain ⟨r, rfl⟩ := List.head?_eq_some_iff.1 hhead
      exact hslash r rfl
    rw [origin, steps, habsolute]
    rfl

theorem resolve_eq_ok_iff :
    d.resolve p = .ok q ↔ '\x00' ∉ p.text ∧ p.text ≠ [] ∧ d.follow (d.origin p) p.steps = .ok q := by
  constructor
  · intro h
    have hzero : '\x00' ∉ p.text := by
      intro hmem
      unfold resolve at h
      rw [if_pos (by simpa using hmem)] at h
      cases h
    have hne : p.text ≠ [] := by
      intro hnil
      unfold resolve at h
      rw [hnil] at h
      cases h
    exact ⟨hzero, hne, (resolve_eq hzero hne).symm.trans h⟩
  · rintro ⟨hzero, hne, hfollow⟩
    exact (resolve_eq hzero hne).trans hfollow

theorem find_eq_ok_iff : d.find p = .ok (q, entry) ↔ d.resolve p = .ok q ∧ d.entry? q = some entry := by
  unfold find
  cases hresolve : d.resolve p with
  | error err => simp [bind, Except.bind]
  | ok place =>
    simp only [bind, Except.bind, pure, Except.pure, Except.ok.injEq]
    split
    · next e he =>
      rw [Except.ok.injEq, Prod.mk.injEq]
      constructor
      · rintro ⟨rfl, rfl⟩
        exact ⟨rfl, he⟩
      · rintro ⟨rfl, hentry⟩
        exact ⟨rfl, Option.some.inj (he.symm.trans hentry)⟩
    · next hnone =>
      refine iff_of_false (by simp) ?_
      rintro ⟨rfl, hentry⟩
      rw [hnone] at hentry
      cases hentry

/-- What stands behind the last name of a path asks for a directory. -/
theorem entry?_of_not_endsInName (h : d.resolve p = .ok q) (hp : ¬ p.EndsInName) : d.entry? q = some .directory := by
  obtain ⟨-, -, hfollow⟩ := resolve_eq_ok_iff.1 h
  rcases List.eq_nil_or_concat p.steps with hnil | ⟨front, s, hsteps⟩
  · obtain ⟨ps, hps⟩ := Text.split_eq_cons '/' (if p.isAbsolute then p.text.tail else p.text)
    exact absurd (hps.symm.trans hnil) (List.cons_ne_nil _ _)
  rw [List.concat_eq_append] at hsteps
  have hs : isFiller s := by
    by_contra hs
    exact hp (endsInName_iff_steps.2 ⟨front, s, hsteps, by simpa using hs⟩)
  rw [hsteps, follow_append] at hfollow
  cases hfront : d.follow (d.origin p) front with
  | error err =>
    rw [hfront] at hfollow
    cases hfollow
  | ok r =>
    rw [hfront] at hfollow
    obtain ⟨rfl, hdirectory⟩ := (follow_filler hs).1 hfollow
    exact hdirectory

section Below

variable (hroot : d.find root = .ok (home, .directory)) (hp : root.Extends names p)
include hroot hp

/-- From a directory, a path below it goes on with the names behind it. -/
theorem follow_turns : d.follow (d.origin p) p.turns = d.follow home names := by
  obtain ⟨-, -, hfollow⟩ := resolve_eq_ok_iff.1 (find_eq_ok_iff.1 hroot).1
  have hhome : d.follow (d.origin p) root.turns = .ok home := by
    rw [origin, hp.isAbsolute_eq]
    exact follow_filter_of_eq_ok hfollow
  rw [hp.turns, follow_append, hhome]
  rfl

theorem zero_notMem_text (hnames : ∀ s ∈ names, '\x00' ∉ s) : '\x00' ∉ p.text := by
  obtain ⟨hzero, -, -⟩ := resolve_eq_ok_iff.1 (find_eq_ok_iff.1 hroot).1
  rw [zero_mem_text_iff, hp.turns]
  rintro ⟨s, hs, hmem⟩
  rcases List.mem_append.1 hs with hs | hs
  · exact hzero (zero_mem_text_iff.2 ⟨s, hs, hmem⟩)
  · exact hnames s hs hmem

theorem follow_names_of_resolve (h : d.resolve p = .ok q) : d.follow home names = .ok q := by
  obtain ⟨-, -, hfollow⟩ := resolve_eq_ok_iff.1 h
  rw [← follow_turns hroot hp]
  exact follow_filter_of_eq_ok hfollow

/-- A path that ends with its last name leads where its names lead. -/
theorem resolve_below (hnames : ∀ s ∈ names, '\x00' ∉ s) (hends : p.EndsInName) :
    d.resolve p = d.follow home names := by
  obtain ⟨front, s, hsteps, hs⟩ := endsInName_iff_steps.1 hends
  have hturns : p.turns = front.filter (!isFiller ·) ++ [s] := by
    rw [turns, hsteps, List.filter_append, List.filter_cons_of_pos (by simp [hs]), List.filter_nil]
  have hfollow : d.follow (d.origin p) p.steps = d.follow home names := by
    rw [hsteps, follow_filter, ← hturns, follow_turns hroot hp]
  have hzero := zero_notMem_text hroot hp hnames
  exact (resolve_eq hzero hends.ne_nil).trans hfollow

/-- A directory is found under whatever stands behind its name. -/
theorem find_below_of_directory (hnames : ∀ s ∈ names, '\x00' ∉ s) (hne : p.text ≠ [])
    (h : d.follow home names = .ok q) (hq : d.entry? q = some .directory) : d.find p = .ok (q, .directory) := by
  have hturns : d.follow (d.origin p) p.turns = .ok q := (follow_turns hroot hp).trans h
  have hfollow : d.follow (d.origin p) p.steps = .ok q := follow_of_directory hturns hq
  exact find_eq_ok_iff.2 ⟨resolve_eq_ok_iff.2 ⟨zero_notMem_text hroot hp hnames, hne, hfollow⟩, hq⟩

/-- What a path finds is at the place of its names, and a file is found only under a path that ends with its name. -/
theorem find_below_iff (hnames : ∀ s ∈ names, IsName s) (hne : names ≠ [])
    (hplace : d.entry? (home ++ names) = some entry →
      (∀ s ∈ names, Fits s) ∧ ∀ k, k <+: names → k ≠ names → d.entry? (home ++ k) = some .directory) :
    d.find p = .ok (q, entry) ↔
      q = home ++ names ∧ d.entry? (home ++ names) = some entry ∧ (p.EndsInName ∨ entry = .directory) := by
  constructor
  · intro h
    obtain ⟨hresolve, hentry⟩ := find_eq_ok_iff.1 h
    obtain ⟨rfl, -⟩ := eq_of_follow_names hnames (follow_names_of_resolve hroot hp hresolve)
    refine ⟨rfl, hentry, or_iff_not_imp_left.2 fun hends => ?_⟩
    rw [entry?_of_not_endsInName hresolve hends] at hentry
    exact (Option.some.inj hentry).symm
  · rintro ⟨rfl, hentry, hends⟩
    obtain ⟨hfits, habove⟩ := hplace hentry
    have hfollow := follow_names (fun s hs => ⟨hnames s hs, hfits s hs⟩) habove
    rcases hends with hends | rfl
    · refine find_eq_ok_iff.2 ⟨?_, hentry⟩
      rw [resolve_below hroot hp (fun s hs => (hfits s hs).zero_notMem) hends, hfollow]
    · have htext : p.text ≠ [] := by
        intro hnil
        have hcomponents : p.components = [] := by
          obtain ⟨t⟩ := p
          obtain rfl : t = [] := hnil
          rfl
        rw [hp, List.append_eq_nil_iff, List.map_eq_nil_iff] at hcomponents
        exact hne hcomponents.2
      exact find_below_of_directory hroot hp (fun s hs => (hfits s hs).zero_notMem) htext hfollow hentry

end Below

end Disk

end Pagewright
