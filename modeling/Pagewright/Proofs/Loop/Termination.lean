import Pagewright.Proofs.Loop.Markup
import Pagewright.Proofs.Loop.Written
import Pagewright.Storage.Memory

/-!
# Loops that come to an end, and loops that do not

For the expansion of a text some stack is deep enough exactly if there is no endless chain of rounds that
open into each other. Over data without a `<` there is none. In general there is: an item can hold the very
loop over its own collection, and then each round is the loop again (`selfFeedingSite`).
-/

namespace Pagewright.Site

open Loop

variable {σ : Type} [Storage σ]

/-- The expansion of a text has an answer on some stack, a text or an error, if and only if no chain of
rounds goes on forever; and over data without a `<` it has one as soon as the stack holds as many open
rounds as the text has of them. -/
theorem expandLoops_ends_iff (site : Site σ) (frontmatter : Option Fields) (t : Text) :
    ((∃ n r, site.expandLoopsWithin frontmatter n t = some r) ↔
        ¬ ∃ chain : ℕ → Text, chain 0 = t ∧
          ∀ i, site.OpensInto frontmatter (chain i) (chain (i + 1))) ∧
      (site.PlainData frontmatter → t.count '<' ≤ site.stack →
        ∃ r, site.expandLoops frontmatter t = some r) := by
  have hgrounded : Grounded site frontmatter t ↔
      ¬ ∃ chain : ℕ → Text, chain 0 = t ∧
        ∀ i, site.OpensInto frontmatter (chain i) (chain (i + 1)) := by
    rw [← not_iff_not, not_not]
    exact not_acc_iff_exists_descending_chain
  refine ⟨?_, fun hdata hstack => ?_⟩
  · rw [← hgrounded]
    exact grounded_iff.symm
  · exact exists_expandLoopsWithin_eq_some_of_plainData hdata (Nat.le_succ_of_le hstack)

/-! ## A loop over plain data -/

/-- A site without files and with a single collection. -/
def collectionSite (name : Text) (items : List Json) : Site MemoryStore where
  store := .empty
  settings := default
  collections := [(name, items)]

theorem loopData?_collectionSite (name : Text) (items : List Json)
    (h : Text.after? "frontmatter.".toList name = none) :
    (collectionSite name items).loopData? none name = .ok (some (.array items)) := by
  unfold loopData?
  rw [h]
  simp [collectionSite, Collections.get?, pure, Except.pure]

theorem expandLoops_ends_of_plain_collection :
    (collectionSite ['c'] [.string ['1']]).PlainData none ∧
      ∃ r, (collectionSite ['c'] [.string ['1']]).expandLoops none
        (written ['c'] ['a'] "\x7ba\x7d".toList) = some r := by
  have hdata : (collectionSite ['c'] [.string ['1']]).PlainData none := by
    intro name v h s hs
    unfold loopData? at h
    split at h
    · simp [pure, Except.pure] at h
    · by_cases hn : 'c' :: [] = name
      · simp only [collectionSite, Collections.get?, hn, ↓reduceIte, pure, Except.pure,
          Except.ok.injEq, Option.some.injEq] at h
        subst h
        rw [List.mem_singleton.1 hs]
        decide
      · simp [collectionSite, Collections.get?, hn, Site.read, Storage.read, MemoryStore.get?,
          MemoryStore.empty, Except.mapError, bind, Except.bind] at h
  exact ⟨hdata, (expandLoops_ends_iff _ none _).2 hdata (by decide)⟩

/-! ## A loop that feeds itself -/

/-- A loop over the collection `c` that shows a field of its items. -/
def selfFeedingLoop : Text := written ['c'] ['a'] "\x7ba.x\x7d".toList

/-- The only item of the collection `c` holds a loop over that collection. -/
def selfFeedingItem : Json := .object [(['x'], .string selfFeedingLoop)]

/-- A site on which a loop comes back as its own round. -/
def selfFeedingSite : Site MemoryStore := collectionSite ['c'] [selfFeedingItem]

/-- No stack is deep enough for a loop over data that holds the loop. -/
theorem expandLoops_selfFeedingLoop :
    ¬ ∃ n r, selfFeedingSite.expandLoopsWithin none n selfFeedingLoop = some r := by
  have hround : roundsOf "\x7ba.x\x7d".toList [selfFeedingItem] ['a'] = [selfFeedingLoop] := by
    decide +kernel
  have hdata : selfFeedingSite.loopData? none ['c'] = .ok (some (.array [selfFeedingItem])) :=
    loopData?_collectionSite ['c'] [selfFeedingItem] (by decide)
  have hnone : ∀ n, selfFeedingSite.expandLoopsWithin none n selfFeedingLoop = none := by
    intro n
    induction n with
    | zero => decide +kernel
    | succ n ih =>
      rw [selfFeedingLoop, expandLoopsWithin_written (by decide) (by decide)
        (isBody_of_notMem (by decide)) hdata, hround, inSequence_cons_of_none ih]
  rintro ⟨n, r, h⟩
  simp [hnone n] at h

end Pagewright.Site
