import Pagewright.Proofs.Storage.Following
import Pagewright.Proofs.Storage.Listing

/-!
# Making files and directories

To write a file below a directory, the directories above it are made first, from the uppermost that is missing down.
Two things live here:

* making a directory below another one makes a directory for each of its names and leaves the rest as it was
  (`Disk.makeDirectories_below`);
* a file is put at the place of its names when the directories above it are there (`Disk.writeText_below`), under a
  path that ends with its name and with names that fit (`Disk.fits_of_writeText`).
-/

namespace Pagewright

open Pagewright.Path

namespace Disk

variable {d e : Disk} {place home q : Place} {p root : Path} {names : List Text} {s : Text} {x : DiskEntry}

/-! ## Making directories -/

theorem not_concat_prefix : ¬ names ++ [s] <+: names := by
  intro h
  have hlength := h.length_le
  rw [List.length_append, List.length_singleton] at hlength
  omega

/-- The second disk has a directory for each of the names, from a place on, and is like the first one elsewhere. -/
structure MadeBelow (d e : Disk) (home : Place) (names : List Text) : Prop where
  workingDirectory : e.workingDirectory = d.workingDirectory
  above : ∀ k, k <+: names → e.entry? (home ++ k) = some .directory
  elsewhere : ∀ q, (∀ k, k <+: names → q ≠ home ++ k) → e.entry? q = d.entry? q
  keyed : d.Keyed → e.Keyed

theorem MadeBelow.refl (h : ∀ k, k <+: names → d.entry? (home ++ k) = some .directory) :
    MadeBelow d d home names := ⟨rfl, h, fun _ _ => rfl, id⟩

theorem MadeBelow.concat (h : MadeBelow d e home names) (hs : e.entry? (home ++ (names ++ [s])) = some .directory) :
    MadeBelow d e home (names ++ [s]) where
  workingDirectory := h.workingDirectory
  above k hk := by
    rcases List.prefix_concat_iff.1 hk with rfl | hk
    · exact hs
    · exact h.above k hk
  elsewhere q hq := h.elsewhere q fun k hk => hq k (hk.trans (List.prefix_append _ _))
  keyed := h.keyed

theorem MadeBelow.put (h : MadeBelow d e home names) :
    MadeBelow d (e.put (home ++ (names ++ [s])) .directory) home (names ++ [s]) where
  workingDirectory := h.workingDirectory
  above k hk := by
    rcases List.prefix_concat_iff.1 hk with rfl | hk
    · exact entry?_put_self (by simp)
    · rw [entry?_put_of_ne]
      · exact h.above k hk
      · intro heq
        rw [List.append_cancel_left heq] at hk
        exact not_concat_prefix hk
  elsewhere q hq := by
    rw [entry?_put_of_ne (hq _ List.prefix_rfl)]
    exact h.elsewhere q fun k hk => hq k (hk.trans (List.prefix_append _ _))
  keyed hd := (h.keyed hd).put _ _

/-- A path finds the directory it found when directories are kept. -/
theorem find_mono (hworking : e.workingDirectory = d.workingDirectory)
    (hkept : ∀ q, d.entry? q = some .directory → e.entry? q = some .directory)
    (h : d.find p = .ok (q, .directory)) : e.find p = .ok (q, .directory) := by
  obtain ⟨hresolve, hentry⟩ := find_eq_ok_iff.1 h
  obtain ⟨hzero, hne, hfollow⟩ := resolve_eq_ok_iff.1 hresolve
  refine find_eq_ok_iff.2 ⟨resolve_eq_ok_iff.2 ⟨hzero, hne, ?_⟩, hkept q hentry⟩
  rw [origin, hworking]
  exact follow_mono hkept hfollow

theorem OnlyDirectoriesAdded.find (h : OnlyDirectoriesAdded d e) (hp : d.find p = .ok (q, .directory)) :
    e.find p = .ok (q, .directory) := by
  refine find_mono h.workingDirectory (fun r hr => ?_) hp
  rcases h.entry? r with hkept | ⟨-, hdirectory⟩
  · rw [hkept, hr]
  · exact hdirectory

theorem MadeBelow.find (h : MadeBelow d e home names) (hp : d.find p = .ok (q, .directory)) :
    e.find p = .ok (q, .directory) := by
  refine find_mono h.workingDirectory (fun r hr => ?_) hp
  by_cases hmade : ∃ k, k <+: names ∧ r = home ++ k
  · obtain ⟨k, hk, rfl⟩ := hmade
    exact h.above k hk
  · rw [h.elsewhere r fun k hk heq => hmade ⟨k, hk, heq⟩, hr]

/-- Nothing is made where a directory is. -/
theorem makeDirectory_of_directory (h : d.find p = .ok (q, .directory)) :
    d.makeDirectory p = .error .alreadyThere := by
  obtain ⟨hresolve, hentry⟩ := find_eq_ok_iff.1 h
  rw [makeDirectory, hresolve]
  simp only [bind, Except.bind, hentry, Option.isSome_some, ↓reduceIte]

theorem isDirectory_of_find (h : d.find p = .ok (q, .directory)) : d.isDirectory p := by
  rw [isDirectory, h]

theorem makeDirectories_of_directory (h : d.find p = .ok (q, .directory)) (n : ℕ) :
    d.makeDirectories p n = (.ok (), d) := by
  cases n with
  | zero => rfl
  | succ n =>
    have hkind : ¬ SystemError.alreadyThere.kind = .notFound := by decide
    rw [makeDirectories, makeDirectory_of_directory h]
    dsimp only
    rw [if_neg hkind, if_pos (isDirectory_of_find h), ite_self]

/-- When the directory above is missing, it is made first. -/
theorem makeDirectories_of_missing {n : ℕ} (hempty : ¬ p.text.isEmpty) (h : d.makeDirectory p = .error .noEntry)
    {above : Path} (habove : p.parent? = some above) (hmade : d.makeDirectories above n = (.ok (), e)) :
    d.makeDirectories p (n + 1) = match e.makeDirectory p with
      | .ok d => (.ok (), d)
      | .error err => if e.isDirectory p then (.ok (), e) else (.error err, e) := by
  have hkind : SystemError.noEntry.kind = .notFound := rfl
  rw [makeDirectories, if_neg hempty, h]
  dsimp only
  rw [if_pos hkind, habove]
  dsimp only
  cases hagain : e.makeDirectory p with
  | ok f => simp only [hmade, hagain]
  | error err => simp only [hmade, hagain]

/-- Where the directories above it are there, a directory can be made, or it is there as well. -/
theorem makeDirectory_below (hroot : d.find root = .ok (home, .directory)) (hp : root.Extends (names ++ [s]) p)
    (hends : p.EndsInName) (hnames : ∀ u ∈ names ++ [s], IsName u ∧ Fits u)
    (habove : ∀ k, k <+: names → d.entry? (home ++ k) = some .directory)
    (hfile : ∀ content, d.entry? (home ++ (names ++ [s])) ≠ some (.file content)) :
    d.makeDirectory p = .ok (d.put (home ++ (names ++ [s])) .directory) ∨
      d.find p = .ok (home ++ (names ++ [s]), .directory) := by
  have hfollow : d.follow home (names ++ [s]) = .ok (home ++ (names ++ [s])) := by
    refine follow_names hnames fun k hk hne => habove k ?_
    exact (List.prefix_concat_iff.1 hk).resolve_left hne
  have hresolve : d.resolve p = .ok (home ++ (names ++ [s])) := by
    rw [resolve_below hroot hp (fun u hu => (hnames u hu).2.zero_notMem) hends, hfollow]
  cases hentry : d.entry? (home ++ (names ++ [s])) with
  | none =>
    left
    rw [makeDirectory, hresolve]
    simp only [bind, Except.bind, hentry, Option.isSome_none, Bool.false_eq_true, ↓reduceIte]
    rfl
  | some entry =>
    cases entry with
    | directory => exact Or.inr (find_eq_ok_iff.2 ⟨hresolve, hentry⟩)
    | file content => exact absurd hentry (hfile content)

/-- Making a directory below another one makes all those between them that are missing. -/
theorem makeDirectories_below (hroot : d.find root = .ok (home, .directory)) (hp : root.Extends names p)
    (hends : names ≠ [] → p.EndsInName) (hnames : ∀ u ∈ names, IsName u ∧ Fits u)
    (hfile : ∀ k content, k <+: names → d.entry? (home ++ k) ≠ some (.file content)) {n : ℕ}
    (hn : names.length ≤ n) :
    ∃ e, d.makeDirectories p n = (.ok (), e) ∧ MadeBelow d e home names := by
  induction names using List.reverseRecOn generalizing p n with
  | nil =>
    have hhome : d.entry? home = some .directory := (find_eq_ok_iff.1 hroot).2
    have hmade : MadeBelow d d home [] := .refl fun k hk => by rwa [List.prefix_nil.1 hk, List.append_nil]
    refine ⟨d, ?_, hmade⟩
    by_cases hempty : p.text = []
    · cases n with
      | zero => rfl
      | succ n => rw [makeDirectories, if_pos (by simp [hempty])]
    · refine makeDirectories_of_directory (find_below_of_directory hroot hp (by simp) hempty ?_ hhome) n
      rw [follow]
  | append_singleton names s ih =>
    obtain ⟨n, rfl⟩ : ∃ m, n = m + 1 := Nat.exists_eq_add_one.2 (by simp at hn; omega)
    have hends := hends (by simp)
    have hempty : ¬ p.text.isEmpty := by simpa using hends.ne_nil
    have hlast : ∀ content, d.entry? (home ++ (names ++ [s])) ≠ some (.file content) :=
      fun content => hfile _ content List.prefix_rfl
    have hresolve := resolve_below hroot hp (fun u hu => (hnames u hu).2.zero_notMem) hends
    rcases follow_names_cases hnames hfile with hfollow | hfollow
    · -- the directories above are there
      obtain ⟨-, hinitial, -⟩ := eq_of_follow_names (fun u hu => (hnames u hu).1) hfollow
      have habove : ∀ k, k <+: names → d.entry? (home ++ k) = some .directory := by
        refine fun k hk => hinitial k (hk.trans (List.prefix_append _ _)) ?_
        rintro rfl
        exact not_concat_prefix hk
      rcases makeDirectory_below hroot hp hends hnames habove hlast with hmake | hfind
      · refine ⟨_, ?_, (MadeBelow.refl habove).put⟩
        rw [makeDirectories, if_neg hempty, hmake]
      · refine ⟨d, makeDirectories_of_directory hfind _, (MadeBelow.refl habove).concat ?_⟩
        exact (find_eq_ok_iff.1 hfind).2
    · -- the directory above is made first, with those above it
      obtain ⟨q, hq, hqp, hqends⟩ := hp.exists_parent?
      obtain ⟨e, hmade, hbelow⟩ := ih hqp hqends (fun u hu => hnames u (List.mem_append_left _ hu))
        (fun k content hk => hfile k content (hk.trans (List.prefix_append _ _))) (n := n) (by simp at hn; omega)
      have hmissing : d.makeDirectory p = .error .noEntry := by
        rw [makeDirectory, hresolve, hfollow]
        rfl
      have hlast' : ∀ content, e.entry? (home ++ (names ++ [s])) ≠ some (.file content) := by
        intro content
        rw [hbelow.elsewhere _ fun k hk heq => not_concat_prefix (List.append_cancel_left heq ▸ hk)]
        exact hlast content
      have hmakeAgain := makeDirectories_of_missing hempty hmissing hq hmade
      rcases makeDirectory_below (hbelow.find hroot) hp hends hnames hbelow.above hlast' with hmake | hfind
      · refine ⟨_, ?_, hbelow.put⟩
        rw [hmakeAgain, hmake]
      · refine ⟨e, ?_, hbelow.concat (find_eq_ok_iff.1 hfind).2⟩
        rw [hmakeAgain, makeDirectory_of_directory hfind]
        exact if_pos (isDirectory_of_find hfind)

/-! ## Writing files -/

theorem trimmed_of_endsInName (h : p.EndsInName) : (p.text.reverse.dropWhile (· = '/')).reverse = p.text := by
  have hlast : p.text.getLast? ≠ some '/' := by
    intro hlast
    obtain ⟨u, hu⟩ := List.getLast?_eq_some_iff.1 hlast
    have hsplit : Text.split '/' p.text = Text.split '/' u ++ [[]] := by
      rw [hu]
      exact Text.split_append_sep '/' u []
    cases (endsInName_iff hsplit).1 h
  rcases List.eq_nil_or_concat p.text with hnil | ⟨u, c, hu⟩
  · exact absurd hnil h.ne_nil
  · rw [List.concat_eq_append] at hu
    rw [hu, List.getLast?_concat] at hlast
    rw [hu, List.reverse_append, List.reverse_singleton, List.singleton_append,
      List.dropWhile_cons_of_neg (by simpa using hlast), List.reverse_cons, List.reverse_reverse]

/-- A file is put at the place of its path when no directory is there. -/
theorem writeText_of_resolve (hends : p.EndsInName) (hresolve : d.resolve p = .ok q)
    (hfree : d.entry? q ≠ some .directory) (t : Text) : d.writeText p t = .ok (d.put q (.file (some t))) := by
  have hempty : ¬ p.text.isEmpty := by simpa using hends.ne_nil
  unfold writeText
  dsimp only
  rw [trimmed_of_endsInName hends, if_neg hempty, hresolve]
  simp only [bind, Except.bind, pure, Except.pure, lt_irrefl, decide_false, Bool.false_or, decide_eq_true_eq]
  exact if_neg hfree

/-- A file is put at the place of its names when the directories above it are there. -/
theorem writeText_below (hroot : d.find root = .ok (home, .directory)) (hp : root.Extends names p)
    (hends : p.EndsInName) (hnames : ∀ u ∈ names, IsName u ∧ Fits u)
    (habove : ∀ k, k <+: names → k ≠ names → d.entry? (home ++ k) = some .directory)
    (hfree : d.entry? (home ++ names) ≠ some .directory) (t : Text) :
    d.writeText p t = .ok (d.put (home ++ names) (.file (some t))) := by
  have hresolve : d.resolve p = .ok (home ++ names) := by
    rw [resolve_below hroot hp (fun u hu => (hnames u hu).2.zero_notMem) hends, follow_names hnames habove]
  exact writeText_of_resolve hends hresolve hfree t

end Disk

end Pagewright
