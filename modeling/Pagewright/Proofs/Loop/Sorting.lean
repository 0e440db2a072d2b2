import Mathlib.Data.List.Pairwise
import Mathlib.Data.List.Sort
import Pagewright.Proofs.Binary64.Order
import Pagewright.Proofs.Json.Valid
import Pagewright.Proofs.Text.Order
import Pagewright.Template.Loop

/-!
# Items in order

Items are put in order by inserting them one after the other, each behind the last one before which it does not
belong. That is the insertion sort of the library, run from the other end (`Loop.sortItems_eq`). What it gives is said
for any comparison of items (`Loop.SortsBy`), and comes from a total order of what is compared
(`Loop.sortsBy_sortItems`). Two orders of items matter here:

* that of the words of a field (`Loop.byWord`), by `Loop.collate`, a total order which ties equal words only;
* that of the numbers of a field, as floating-point numbers (`Loop.byNumber`).
-/

namespace Pagewright.Loop

open Std

variable {o : Order} {items sorted : List Json} {a b x : Json} {field : Text}

/-! ## Insertion -/

/-- Items are in backward order while they are put in order, so what an item is inserted before is what it does not
belong before. -/
theorem insertBackward_eq (precedes : Json → Json → Bool) (x : Json) (l : List Json) :
    insertBackward precedes x l = l.orderedInsert (fun a b => ¬ precedes a b) x := by
  induction l with
  | nil => rfl
  | cons y l ih =>
    rw [insertBackward, List.orderedInsert_cons, ih]
    by_cases hxy : precedes x y
    · rw [if_pos hxy, if_neg (not_not_intro hxy)]
    · rw [if_neg hxy, if_pos hxy]

theorem sortItems_eq (o : Order) (items : List Json) :
    sortItems o items = (items.reverse.insertionSort fun a b => ¬ o.precedes a b).reverse := by
  have hinsert : insertBackward o.precedes = fun x l => l.orderedInsert (fun a b => ¬ o.precedes a b) x := by
    funext x l
    exact insertBackward_eq o.precedes x l
  rw [sortItems, List.insertionSort, List.foldr_reverse, hinsert]

/-! ## What it means to be in order -/

/-- The items of a list put in order by a comparison: they are the same items, none stands behind one that belongs
behind it, and those that are equal keep their order. -/
structure SortsBy (cmp : Json → Json → Ordering) (items sorted : List Json) : Prop where
  perm : sorted.Perm items
  ordered : sorted.Pairwise fun a b => (cmp a b).isLE
  stable : ∀ a ∈ items, sorted.filter (fun b => cmp a b = .eq) = items.filter fun b => cmp a b = .eq

/-- A comparison in one direction or the other. -/
def directed (descending : Bool) (cmp : Json → Json → Ordering) : Json → Json → Ordering :=
  if descending then fun a b => cmp b a else cmp

section Orders

variable {cmp : Json → Json → Ordering} [TransCmp cmp]

instance (descending : Bool) : TransCmp (directed descending cmp) := by
  cases descending
  · exact inferInstanceAs (TransCmp cmp)
  · exact inferInstanceAs (TransCmp fun a b => cmp b a)

/-- The first item does not belong before the second one. -/
def NotBefore (cmp : Json → Json → Ordering) (a b : Json) : Prop := (cmp b a).isLE

instance : DecidableRel (NotBefore cmp) := fun a b => inferInstanceAs (Decidable ((cmp b a).isLE = true))

instance : Std.Total (NotBefore cmp) where
  total a b := by
    unfold NotBefore
    rw [@OrientedCmp.eq_swap _ cmp _ b a]
    cases cmp a b <;> decide

instance : IsTrans Json (NotBefore cmp) where
  trans _ _ _ hab hbc := TransCmp.isLE_trans hbc hab

theorem eq_swap (cmp : Json → Json → Ordering) [TransCmp cmp] (a b : Json) : cmp a b = (cmp b a).swap :=
  OrientedCmp.eq_swap

/-- Items are put in order by a total order that says what belongs before what. -/
theorem sortsBy_sortItems (h : ∀ a ∈ items, ∀ b ∈ items, o.precedes a b ↔ cmp a b = .lt) :
    SortsBy cmp items (sortItems o items) := by
  -- the items are the only ones that are compared, so the order may be used in place of the test
  have hsame : items.reverse.insertionSort (fun a b => ¬ o.precedes a b) =
      items.reverse.insertionSort (NotBefore cmp) := by
    have hmap := List.map_insertionSort (fun a b => ¬ o.precedes a b) (NotBefore cmp) id items.reverse
    rw [List.map_id, List.map_id] at hmap
    refine hmap fun a ha b hb => ?_
    rw [h a (List.mem_reverse.1 ha) b (List.mem_reverse.1 hb), id, id, NotBefore, eq_swap cmp b a]
    cases cmp a b <;> decide
  rw [sortItems_eq, hsame]
  have hperm : (items.reverse.insertionSort (NotBefore cmp)).reverse.Perm items :=
    (List.reverse_perm _).trans ((List.perm_insertionSort _ _).trans (List.reverse_perm items))
  refine ⟨hperm, ?_, ?_⟩
  · rw [List.pairwise_reverse]
    exact List.pairwise_insertionSort (NotBefore cmp) items.reverse
  · intro a _
    set tied := fun b => decide (cmp a b = .eq)
    set backward := items.reverse.insertionSort (NotBefore cmp)
    -- the items that are equal to one are in order among themselves, so sorting leaves them as they are
    have htied : (items.reverse.filter tied).Pairwise (NotBefore cmp) := by
      refine List.pairwise_of_forall_mem_list fun b hb c hc => ?_
      have hab : cmp a b = .eq := of_decide_eq_true (List.mem_filter.1 hb).2
      have hac : cmp a c = .eq := of_decide_eq_true (List.mem_filter.1 hc).2
      have hcb : cmp c b = .eq := TransCmp.eq_trans (OrientedCmp.eq_symm hac) hab
      rw [NotBefore, hcb]
      rfl
    have hsub : (items.reverse.filter tied).Sublist (backward.filter tied) := by
      have hsub := (List.sublist_insertionSort htied List.filter_sublist).filter tied
      simpa only [List.filter_filter, Bool.and_self] using hsub
    have hlen : (items.reverse.filter tied).length = (backward.filter tied).length :=
      ((List.perm_insertionSort (NotBefore cmp) items.reverse).symm.filter tied).length_eq
    rw [List.filter_reverse, ← hsub.eq_of_length hlen, ← List.filter_reverse, List.reverse_reverse]

/-- Items that are equal are one item, if all items are different. -/
theorem eq_of_tied (hdistinct : items.Pairwise fun a b => cmp a b ≠ .eq) (ha : a ∈ items) (hb : b ∈ items)
    (hab : cmp a b = .eq) : a = b := by
  have hsymm : Std.Symm fun a b => cmp a b ≠ .eq := ⟨fun a b hne heq => hne (OrientedCmp.eq_symm heq)⟩
  by_contra hne
  exact hdistinct.forall ha hb hne hab

/-- Different items can be put in order in one way only, and in the other direction in the opposite way. -/
theorem SortsBy.eq_reverse {backward : List Json} (hsorted : SortsBy cmp items sorted)
    (hbackward : SortsBy (fun a b => cmp b a) items backward)
    (hdistinct : items.Pairwise fun a b => cmp a b ≠ .eq) : backward = sorted.reverse := by
  have hperm : backward.Perm sorted.reverse :=
    hbackward.perm.trans (hsorted.perm.symm.trans (List.reverse_perm sorted).symm)
  refine List.Perm.eq_of_pairwise ?_ hbackward.ordered (List.pairwise_reverse.2 hsorted.ordered) hperm
  intro a b ha hb hba hab
  have hmem : b ∈ items := hsorted.perm.mem_iff.1 (List.mem_reverse.1 hb)
  exact eq_of_tied hdistinct (hbackward.perm.mem_iff.1 ha) hmem (OrientedCmp.isLE_antisymm hab hba)

theorem pair_sublist_filter_iff {l : List Json} (hab : cmp a b = .eq) :
    [a, b].Sublist (l.filter fun c => cmp a c = .eq) ↔ [a, b].Sublist l := by
  constructor
  · intro hsub
    exact hsub.trans List.filter_sublist
  · intro hsub
    have haa : cmp a a = .eq := ReflCmp.compare_self
    have htied : [a, b].filter (fun c => cmp a c = .eq) = [a, b] := by simp [haa, hab]
    exact htied ▸ hsub.filter fun c => cmp a c = .eq

/-- Two items that are equal stand in the order in which they stood. -/
theorem SortsBy.pair_sublist_iff (h : SortsBy cmp items sorted) (hab : cmp a b = .eq) :
    [a, b].Sublist sorted ↔ [a, b].Sublist items := by
  rw [← pair_sublist_filter_iff (l := sorted) hab, ← pair_sublist_filter_iff (l := items) hab]
  by_cases ha : a ∈ items
  · rw [h.stable a ha]
  · have hnot : ∀ {l : List Json}, a ∉ l → ¬ [a, b].Sublist (l.filter fun c => cmp a c = .eq) := fun hl hsub =>
      hl (List.mem_of_mem_filter (hsub.subset List.mem_cons_self))
    exact iff_of_false (hnot fun hmem => ha (h.perm.mem_iff.1 hmem)) (hnot ha)

/-- What belongs behind an item does not stand in front of it. -/
theorem SortsBy.of_gt {before : Json → Json → Prop} (h : SortsBy cmp items sorted)
    (hsorted : sorted.Pairwise fun a b => ¬ before b a) (ha : a ∈ items) (hb : b ∈ items) (hab : before a b) :
    cmp a b ≠ .gt := by
  intro hgt
  have hne : a ≠ b := by
    rintro rfl
    have haa : cmp a a = .eq := ReflCmp.compare_self
    rw [haa] at hgt
    cases hgt
  let apart (a b : Json) : Prop := ¬ (cmp a b = .gt ∧ before a b) ∧ ¬ (cmp b a = .gt ∧ before b a)
  have hsymm : Std.Symm apart := ⟨fun a b hapart => hapart.symm⟩
  have hapart : sorted.Pairwise apart := (h.ordered.and hsorted).imp fun {a b} hab =>
    ⟨fun hgt => by simp [hgt.1] at hab, fun hgt => hab.2 hgt.2⟩
  -- one of the two stands in front of the other one, whichever it is
  exact (hapart.forall (h.perm.mem_iff.2 ha) (h.perm.mem_iff.2 hb) hne).1 ⟨hgt, hab⟩

/-- When items that are put in order by one comparison are in another order too: what belongs before another item
there must not come behind it here, and of items that are equal here none may stand behind one that it belongs
before. -/
theorem SortsBy.pairwise_iff {before : Json → Json → Prop} (h : SortsBy cmp items sorted) :
    sorted.Pairwise (fun a b => ¬ before b a) ↔
      (∀ a ∈ items, ∀ b ∈ items, before a b → cmp a b ≠ .gt) ∧
        items.Pairwise fun a b => cmp a b = .eq → ¬ before b a := by
  constructor
  · intro hsorted
    refine ⟨fun a ha b hb => h.of_gt hsorted ha hb, List.pairwise_iff_forall_sublist.2 ?_⟩
    intro a b hsub htied
    exact List.pairwise_iff_forall_sublist.1 hsorted ((h.pair_sublist_iff htied).2 hsub)
  · rintro ⟨hgt, htied⟩
    rw [List.pairwise_iff_forall_sublist]
    intro a b hsub hba
    have ha : a ∈ items := h.perm.mem_iff.1 (hsub.subset List.mem_cons_self)
    have hb : b ∈ items := h.perm.mem_iff.1 (hsub.subset (List.mem_cons_of_mem a List.mem_cons_self))
    have hle : (cmp a b).isLE := List.pairwise_iff_forall_sublist.1 h.ordered hsub
    have hge : (cmp b a).isLE := Ordering.isLE_iff_ne_gt.2 (hgt b hb a ha hba)
    -- so the two are equal, and equal items stand as they stood
    have heq : cmp a b = .eq := OrientedCmp.isLE_antisymm hle hge
    exact List.pairwise_iff_forall_sublist.1 htied ((h.pair_sublist_iff heq).1 hsub) heq hba

end Orders

/-! ## Words -/

instance : TransCmp fun a b : Text => Text.compare (Text.lowercase a) (Text.lowercase b) where
  eq_swap := OrientedCmp.eq_swap
  isLE_trans := TransCmp.isLE_trans

/-- The order of words is total: it compares two texts, one after the other. -/
instance : TransCmp collate :=
  inferInstanceAs (TransCmp (compareLex (fun a b : Text => Text.compare (Text.lowercase a) (Text.lowercase b))
    fun a b : Text => Text.compare b a))

/-- It ties equal words only, as the second comparison is of the words themselves. -/
instance : LawfulEqCmp collate where
  compare_self := by
    intro a
    rw [collate, (Text.compare_eq_iff _ _).2 rfl, (Text.compare_eq_iff _ _).2 rfl]
    rfl
  eq_of_compare := by
    intro a b h
    rw [collate, Ordering.then_eq_eq] at h
    exact ((Text.compare_eq_iff b a).1 h.2).symm

/-- The word in a field. -/
def wordOf (field : Text) (a : Json) : Text :=
  match fieldOf field a with
  | some (.string w) => w
  | _ => []

/-- The field is a word in every item. -/
def HasWords (field : Text) (items : List Json) : Prop := ∀ a ∈ items, ∃ w, fieldOf field a = some (.string w)

/-- The order of items by the words of a field. -/
def byWord (field : Text) (a b : Json) : Ordering := collate (wordOf field a) (wordOf field b)

instance : TransCmp (byWord field) :=
  have hwords : TransCmp fun a b => collate (wordOf field a) (wordOf field b) :=
    { eq_swap := OrientedCmp.eq_swap, isLE_trans := TransCmp.isLE_trans }
  hwords

theorem byWord_eq_eq_iff : byWord field a b = .eq ↔ wordOf field a = wordOf field b :=
  @LawfulEqCmp.compare_eq_iff_eq _ collate _ _ _

/-! ## Numbers -/

/-- Where the number in a field lies, as a floating-point number. -/
def placeOf (field : Text) (a : Json) : Int :=
  match fieldOf field a with
  | some (.number n) => n.toReal.position?.getD 0
  | _ => 0

/-- The field is a number in every item. -/
def HasNumbers (field : Text) (items : List Json) : Prop :=
  ∀ a ∈ items, ∃ n, fieldOf field a = some (.number n) ∧ n.Valid

/-- The order of items by the numbers of a field. -/
def byNumber (field : Text) (a b : Json) : Ordering := compare (placeOf field a) (placeOf field b)

instance : TransCmp (byNumber field) :=
  have hplaces : TransCmp fun a b => compare (placeOf field a) (placeOf field b) :=
    { eq_swap := OrientedCmp.eq_swap, isLE_trans := TransCmp.isLE_trans }
  hplaces

theorem byNumber_eq_eq_iff : byNumber field a b = .eq ↔ placeOf field a = placeOf field b :=
  Std.compare_eq_iff_eq

theorem exists_position?_of_valid {n : Number} (h : n.Valid) : ∃ p, n.toReal.position? = some p := by
  cases n with
  | int i => exact ⟨_, Binary64.position?_ofInt i⟩
  | real x =>
    cases x with
    | finite s m e => exact ⟨_, rfl⟩
    | nan => exact absurd h id
    | infinite s => exact absurd h id

theorem compareValues_number {m n : Number} (hm : m.Valid) (hn : n.Valid) :
    compareValues (some (.number m)) (some (.number n)) =
      compare (m.toReal.position?.getD 0) (n.toReal.position?.getD 0) := by
  obtain ⟨p, hp⟩ := exists_position?_of_valid hm
  obtain ⟨q, hq⟩ := exists_position?_of_valid hn
  rw [compareValues, Binary64.compare?, hp, hq]
  rfl

/-! ## Both directions -/

theorem precedes_iff {cmp : Json → Json → Ordering} [TransCmp cmp] (descending : Bool)
    (h : compareValues (fieldOf field a) (fieldOf field b) = cmp a b) :
    (Order.mk field descending).precedes a b ↔ directed descending cmp a b = .lt := by
  rw [Order.precedes, decide_eq_true_iff, h]
  cases descending
  · rfl
  · show cmp a b = .gt ↔ cmp b a = .lt
    exact OrientedCmp.gt_iff_lt

/-- Where the values of a field are compared by a total order, items are put in that order in either direction. -/
theorem sortsBy_directed {cmp : Json → Json → Ordering} [TransCmp cmp]
    (h : ∀ a ∈ items, ∀ b ∈ items, compareValues (fieldOf field a) (fieldOf field b) = cmp a b) (descending : Bool) :
    SortsBy (directed descending cmp) items (sortItems ⟨field, descending⟩ items) :=
  sortsBy_sortItems fun a ha b hb => precedes_iff descending (h a ha b hb)

theorem compareValues_of_hasWords (h : HasWords field items) (ha : a ∈ items) (hb : b ∈ items) :
    compareValues (fieldOf field a) (fieldOf field b) = byWord field a b := by
  obtain ⟨v, hv⟩ := h a ha
  obtain ⟨w, hw⟩ := h b hb
  rw [byWord, wordOf, wordOf, hv, hw]
  rfl

theorem compareValues_of_hasNumbers (h : HasNumbers field items) (ha : a ∈ items) (hb : b ∈ items) :
    compareValues (fieldOf field a) (fieldOf field b) = byNumber field a b := by
  obtain ⟨m, hm, hmvalid⟩ := h a ha
  obtain ⟨n, hn, hnvalid⟩ := h b hb
  rw [byNumber, placeOf, placeOf, hm, hn]
  exact compareValues_number hmvalid hnvalid

/-! ## Items with one field -/

/-- An item with a word in the field `n`. -/
def wordItem (w : String) : Json := .object [("n".toList, .string w.toList)]

/-- An item with a number in the field `n`. -/
def numberItem (i : Int) : Json := .object [("n".toList, .number (.int i))]

end Pagewright.Loop
