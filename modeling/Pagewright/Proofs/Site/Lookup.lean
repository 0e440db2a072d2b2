import Mathlib.Data.List.Find
import Pagewright.Proofs.Text.Occurrence
import Pagewright.Proofs.Text.Splitting
import Pagewright.Site.ContentPage
import Pagewright.Template.Tag

/-!
# Where pages are looked for

The page of a content file is looked for in many places, but all of them are named from the directory of the
pages on: their paths begin with the name of this directory (`Path.InPages`).
-/

namespace Pagewright

namespace Path

variable {p q base : Path} {s t : Text} {l : List Text}

theorem dropFillerAtEnd_cons (h : isFiller s = false) (l : List Text) :
    dropFillerAtEnd (s :: l) = s :: dropFillerAtEnd l := by
  unfold dropFillerAtEnd
  rw [List.reverse_cons, List.dropWhile_append, List.dropWhile_cons_of_neg (by simp [h])]
  split
  · next hempty =>
    rw [List.isEmpty_iff.1 hempty]
    rfl
  · rw [List.reverse_append]
    rfl

/-- Is a path named from the directory of the pages on, or from one whose name begins like it? -/
def InPages (p : Path) : Prop := "pages".toList <+: p.text

theorem InPages.segments (h : InPages p) : p.segments = (none, Text.split '/' p.text) := by
  obtain ⟨t, ht⟩ := h
  unfold Path.segments
  rw [← ht]
  rfl

/-- The first segment of such a path, and the others. -/
theorem InPages.split_eq (h : InPages p) : ∃ s l, Text.split '/' p.text = ("pages".toList ++ s) :: l := by
  obtain ⟨t, ht⟩ := h
  obtain ⟨ps, hps⟩ := Text.split_eq_cons '/' p.text
  refine ⟨t.takeWhile (· ≠ '/'), ps, ?_⟩
  rw [hps, ← ht, List.takeWhile_append_of_pos (by decide)]

theorem InPages.components (h : InPages p) :
    p.components = ((Text.split '/' p.text).filter (!isFiller ·)).map ofSegment := by
  unfold Path.components
  rw [h.segments]
  rfl

private theorem isFiller_pages (s : Text) : isFiller ("pages".toList ++ s) = false := rfl

/-- Where no other segment counts, the first one is the path. -/
theorem InPages.components_of_dropFillerAtEnd (h : InPages p)
    (hsplit : Text.split '/' p.text = ("pages".toList ++ s) :: l) (hl : dropFillerAtEnd l = []) :
    p.components = [.name ("pages".toList ++ s)] := by
  have hfiller : l.filter (!isFiller ·) = [] := by
    unfold dropFillerAtEnd at hl
    rw [List.reverse_eq_nil_iff, List.dropWhile_eq_nil_iff] at hl
    rw [List.filter_eq_nil_iff]
    intro u hu
    simpa using hl u (List.mem_reverse.2 hu)
  rw [h.components, hsplit, List.filter_cons_of_pos (by rw [isFiller_pages]; rfl), hfiller]
  rfl

theorem InPages.join (h : InPages p) (hq : q.isAbsolute = false) : InPages (p.join q) := by
  unfold Path.join
  rw [hq]
  split
  · next hf => cases hf
  · split
    · exact h.trans (List.prefix_append _ _)
    · exact h.trans (List.prefix_append _ _)

/-- Neither a dot nor what follows it belongs to the beginning of a name. -/
private theorem prefix_splitName (h : "pages".toList <+: s) : "pages".toList <+: (splitName s).1 := by
  obtain ⟨t, rfl⟩ := h
  unfold splitName
  rw [List.reverse_append]
  by_cases hdot : '.' ∈ t.reverse
  · rw [Text.splitOnce?_append_of_mem hdot]
    cases Text.splitOnce? '.' t.reverse with
    | none => exact List.prefix_append _ _
    | some found =>
      obtain ⟨after, before⟩ := found
      dsimp only [Option.map_some, Prod.map_apply, id]
      split
      · exact List.prefix_append _ _
      · rw [List.reverse_append, List.reverse_reverse]
        exact List.prefix_append _ _
  · have hnone : '.' ∉ t.reverse ++ "pages".toList.reverse := by
      rw [List.mem_append, not_or]
      exact ⟨hdot, by decide⟩
    rw [Text.splitOnce?_of_notMem hnone]
    exact List.prefix_append _ _

theorem InPages.setExtension (h : InPages p) (extension : Text) : InPages (p.setExtension extension) := by
  obtain ⟨s, l, hsplit⟩ := h.split_eq
  cases hstem : p.stem? with
  | none =>
    unfold Path.setExtension
    rw [hstem]
    exact h
  | some stem =>
    have heq : p.setExtension extension = ofSegments none
        ((dropFillerAtEnd (("pages".toList ++ s) :: l)).dropLast ++
          [if extension.isEmpty then stem else stem ++ '.' :: extension]) := by
      unfold Path.setExtension
      rw [hstem, h.segments, hsplit]
    rw [heq, dropFillerAtEnd_cons (isFiller_pages s)]
    cases hrest : dropFillerAtEnd l with
    | nil =>
      -- the name of the file is the first segment
      have hname : p.fileName? = some ("pages".toList ++ s) := by
        unfold fileName?
        rw [h.components_of_dropFillerAtEnd hsplit hrest]
        rfl
      have hstem' : stem = (splitName ("pages".toList ++ s)).1 := by
        unfold stem? at hstem
        rw [hname] at hstem
        exact (Option.some.inj hstem).symm
      have hprefix : "pages".toList <+: stem := hstem' ▸ prefix_splitName (List.prefix_append _ s)
      rw [List.dropLast_singleton, List.nil_append]
      show "pages".toList <+: if extension.isEmpty then stem else stem ++ '.' :: extension
      split
      · exact hprefix
      · exact hprefix.trans (List.prefix_append _ _)
    | cons u l' =>
      rw [List.dropLast_cons_cons, List.cons_append]
      exact (List.prefix_append _ s).trans (Text.prefix_join _ _ _)

theorem notMem_of_mem_segments (h : s ∈ p.segments.2) : '/' ∉ s := by
  unfold Path.segments at h
  split at h
  · exact Text.notMem_of_mem_split h
  · cases h
  · exact Text.notMem_of_mem_split h
  · exact Text.notMem_of_mem_split h

/-- What is left when segments are taken off the start begins with one that counts. -/
theorem dropSegments_eq (n : Nat) (l : List Text) :
    ∃ l', l' ⊆ l ∧ dropSegments n l = l'.dropWhile isFiller := by
  induction n generalizing l with
  | zero => exact ⟨l, List.Subset.refl l, rfl⟩
  | succ n ih =>
    obtain ⟨l', hl', heq⟩ := ih ((l.dropWhile isFiller).drop 1)
    exact ⟨l', fun s hs => (List.dropWhile_suffix _).subset (List.drop_subset 1 _ (hl' hs)), heq⟩

end Path

/-! ## The pages of directories -/

namespace Site

open Pagewright.Path

variable {σ τ : Type} [Storage σ] [Storage τ] {site : Site σ} {other : Site τ}

end Site

end Pagewright
