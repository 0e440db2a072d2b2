import Pagewright.Proofs.Loop.Sorting

/-!
# Whole numbers in order

Whole numbers are compared as floating-point numbers. Rounding keeps their order, so those that are rounded to
different numbers are in the right order; those that are rounded to the same number keep their places, and nothing says
that their places are right. So the exact numbers are in order if and only if those that are rounded to the same
number were in order before (`Loop.sortItems_integers_iff`), as numbers of no more than 53 bits always are.
-/

namespace Pagewright.Loop

open Binary64 (nearest nearest_mono nearest_inj powerOfTwo ofInt position?_ofInt equals_iff)

variable {items : List Json} {a b : Json} {field : Text}

/-- The field is a whole number in every item. -/
def HasIntegers (field : Text) (items : List Json) : Prop :=
  ∀ a ∈ items, ∃ i, fieldOf field a = some (.number (.int i))

/-- The whole number in a field. -/
def integerOf (field : Text) (a : Json) : Int :=
  match fieldOf field a with
  | some (.number (.int i)) => i
  | _ => 0

theorem HasIntegers.hasNumbers (h : HasIntegers field items) : HasNumbers field items := by
  intro a ha
  obtain ⟨i, hi⟩ := h a ha
  exact ⟨.int i, hi, trivial⟩

theorem HasIntegers.placeOf_eq (h : HasIntegers field items) (ha : a ∈ items) :
    placeOf field a = nearest (integerOf field a) := by
  obtain ⟨i, hi⟩ := h a ha
  have hplace : (ofInt i).position?.getD 0 = nearest i := by
    rw [position?_ofInt]
    rfl
  simp only [placeOf, integerOf, hi]
  exact hplace

theorem equals_ofInt_iff (i j : Int) : (ofInt i).equals (ofInt j) ↔ nearest i = nearest j := by
  rw [equals_iff]
  constructor
  · rintro ⟨p, hi, hj⟩
    rw [position?_ofInt, Option.some.injEq] at hi hj
    exact hi.trans hj.symm
  · intro hij
    exact ⟨nearest j, by rw [position?_ofInt, hij], position?_ofInt j⟩

/-- The order of items by the whole numbers of a field, after rounding. -/
theorem HasIntegers.byNumber_eq (h : HasIntegers field items) (ha : a ∈ items) (hb : b ∈ items) :
    byNumber field a b = compare (nearest (integerOf field a)) (nearest (integerOf field b)) := by
  rw [byNumber, h.placeOf_eq ha, h.placeOf_eq hb]

/-- A smaller number never comes behind a greater one because of their rounded values. -/
theorem HasIntegers.byNumber_ne_gt (h : HasIntegers field items) (ha : a ∈ items) (hb : b ∈ items)
    (hlt : integerOf field a < integerOf field b) : byNumber field a b ≠ .gt := by
  rw [h.byNumber_eq ha hb]
  have hle : nearest (integerOf field a) ≤ nearest (integerOf field b) := nearest_mono hlt.le
  exact fun hgt => absurd (Int.compare_eq_gt.1 hgt) (not_lt.2 hle)

theorem HasIntegers.byNumber_eq_eq_iff (h : HasIntegers field items) (ha : a ∈ items) (hb : b ∈ items) :
    byNumber field a b = .eq ↔ (ofInt (integerOf field a)).equals (ofInt (integerOf field b)) := by
  rw [Loop.byNumber_eq_eq_iff, h.placeOf_eq ha, h.placeOf_eq hb, equals_ofInt_iff]

theorem HasIntegers.sortsBy (h : HasIntegers field items) :
    SortsBy (byNumber field) items (sortItems ⟨field, false⟩ items) :=
  sortsBy_directed (fun _ ha _ hb => compareValues_of_hasNumbers h.hasNumbers ha hb) false

/-- After sorting, whole numbers are in order if and only if those that are rounded to the same number were. -/
theorem pairwise_integerOf_iff (h : HasIntegers field items) :
    (sortItems ⟨field, false⟩ items).Pairwise (fun a b => integerOf field a ≤ integerOf field b) ↔
      items.Pairwise fun a b =>
        (ofInt (integerOf field a)).equals (ofInt (integerOf field b)) → integerOf field a ≤ integerOf field b := by
  let before (a b : Json) : Prop := integerOf field a < integerOf field b
  have hnever : ∀ a ∈ items, ∀ b ∈ items, before a b → byNumber field a b ≠ .gt :=
    fun a ha b hb => h.byNumber_ne_gt ha hb
  have hiff : (sortItems ⟨field, false⟩ items).Pairwise (fun a b => ¬ before b a) ↔
      items.Pairwise fun a b => byNumber field a b = .eq → ¬ before b a :=
    h.sortsBy.pairwise_iff.trans (and_iff_right hnever)
  simp only [before, not_lt] at hiff
  rw [hiff]
  exact List.Pairwise.iff_of_mem fun ha hb => by rw [h.byNumber_eq_eq_iff ha hb]

/-- Whole numbers that are rounded to different numbers are in order. -/
theorem pairwise_lt_of_not_equals (h : HasIntegers field items) :
    (sortItems ⟨field, false⟩ items).Pairwise fun a b =>
      ¬ (ofInt (integerOf field a)).equals (ofInt (integerOf field b)) → integerOf field a < integerOf field b := by
  have hsorts := h.sortsBy
  refine hsorts.ordered.imp_of_mem fun {a b} ha hb hle hdiffer => ?_
  have hmem : ∀ {c : Json}, c ∈ sortItems ⟨field, false⟩ items → c ∈ items := hsorts.perm.mem_iff.1
  by_contra hnot
  -- the rounded numbers are in the other order as well, so they are equal
  have hge : nearest (integerOf field b) ≤ nearest (integerOf field a) := nearest_mono (not_lt.1 hnot)
  rw [h.byNumber_eq (hmem ha) (hmem hb), Int.isLE_compare] at hle
  exact hdiffer ((equals_ofInt_iff _ _).2 (le_antisymm hle hge))

/-- Whole numbers of no more than 53 bits are in order. -/
theorem pairwise_integerOf_of_natAbs_le (h : HasIntegers field items)
    (hsmall : ∀ a ∈ items, (integerOf field a).natAbs ≤ powerOfTwo 53) :
    (sortItems ⟨field, false⟩ items).Pairwise fun a b => integerOf field a ≤ integerOf field b := by
  refine (pairwise_integerOf_iff h).2 (List.pairwise_of_forall_mem_list fun a ha b hb hequal => ?_)
  exact (nearest_inj (hsmall a ha) (hsmall b hb) ((equals_ofInt_iff _ _).1 hequal)).le

/-- Whole numbers of any size are in order if and only if those that are rounded to the same number were in order
before. All others are in order in any case, and so are all numbers of no more than 53 bits. -/
theorem sortItems_integers_iff (h : HasIntegers field items) :
    ((sortItems ⟨field, false⟩ items).Pairwise (fun a b => integerOf field a ≤ integerOf field b) ↔
        items.Pairwise fun a b =>
          (ofInt (integerOf field a)).equals (ofInt (integerOf field b)) →
            integerOf field a ≤ integerOf field b) ∧
      ((sortItems ⟨field, false⟩ items).Pairwise fun a b =>
        ¬ (ofInt (integerOf field a)).equals (ofInt (integerOf field b)) →
          integerOf field a < integerOf field b) ∧
      ((∀ a ∈ items, (integerOf field a).natAbs ≤ powerOfTwo 53) →
        (sortItems ⟨field, false⟩ items).Pairwise fun a b => integerOf field a ≤ integerOf field b) :=
  ⟨pairwise_integerOf_iff h, pairwise_lt_of_not_equals h, pairwise_integerOf_of_natAbs_le h⟩

/-- Numbers of 64 bits that are far apart are in order. -/
theorem sortItems_integers_apart :
    HasIntegers "n".toList [numberItem 18446744073709551615, numberItem (-9223372036854775808)] ∧
      (sortItems ⟨"n".toList, false⟩ [numberItem 18446744073709551615, numberItem (-9223372036854775808)]).Pairwise
        fun a b => integerOf "n".toList a ≤ integerOf "n".toList b := by
  have hints : HasIntegers "n".toList [numberItem 18446744073709551615, numberItem (-9223372036854775808)] := by
    simp only [HasIntegers, List.forall_mem_cons, List.not_mem_nil, IsEmpty.forall_iff, implies_true, and_true]
    exact ⟨⟨_, rfl⟩, ⟨_, rfl⟩⟩
  refine ⟨hints, (sortItems_integers_iff hints).1.2 (List.pairwise_pair.2 fun hequal => ?_)⟩
  exact absurd hequal (by decide +kernel)

/-- Two neighbours above the numbers of 53 bits are rounded to the same number, so they stay as they are. -/
theorem sortItems_integers_neighbours :
    (sortItems ⟨"n".toList, false⟩ [numberItem 9007199254740993, numberItem 9007199254740992]).map
      (integerOf "n".toList) = [9007199254740993, 9007199254740992] := by
  decide +kernel

end Pagewright.Loop
