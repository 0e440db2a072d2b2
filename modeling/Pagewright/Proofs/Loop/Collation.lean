import Pagewright.Proofs.Loop.Sorting
import Pagewright.Proofs.Text.Character

/-!
# Capitals and small letters

Words are put in order by their lower case, and those that differ in case only so that small letters come first. What
tells the latter apart is the order of the codes, from the greatest to the least. Three things live here:

* the order that is meant (`Loop.WordBefore`): it looks at the first letters that differ;
* words on which the codes say otherwise (`Loop.Clash`), as a few capitals have a greater code than their small
  letters;
* so items are in the order that is meant if and only if no words of theirs clash, besides being in a total order in
  which equal items keep their places (`Loop.sortItems_sorts`).
-/

namespace Pagewright.Loop

open Std

variable {items : List Json} {a b : Json} {field v w : Text}

/-! ## The order that is meant -/

/-- Is the letter its own lower case? -/
def isSmall (c : Char) : Bool := Text.lower c == [c]

/-- Where the words differ first, the first one has a small letter and the second one a capital. -/
def smallFirst (v w : Text) : Bool := (Text.firstDifference? v w).any fun (c, d) => isSmall c && !isSmall d

/-- The first word comes before the second one: by its lower case, or by a small letter if the lower case is the
same. -/
def WordBefore (v w : Text) : Prop :=
  Text.compare (Text.lowercase v) (Text.lowercase w) = .lt ∨
    Text.lowercase v = Text.lowercase w ∧ smallFirst v w

/-- The words differ in case only, and where they differ first the second one has a capital with a greater code. -/
def Clash (v w : Text) : Prop :=
  Text.lowercase v = Text.lowercase w ∧
    (Text.firstDifference? v w).any fun (c, d) => isSmall c && !isSmall d && c.toNat < d.toNat

instance (v w : Text) : Decidable (WordBefore v w) := inferInstanceAs (Decidable (_ ∨ _ ∧ _))

instance (v w : Text) : Decidable (Clash v w) := inferInstanceAs (Decidable (_ ∧ _))

theorem not_wordBefore_self (v : Text) : ¬ WordBefore v v := by
  rintro (hlt | ⟨-, hsmall⟩)
  · rw [(Text.compare_eq_iff _ _).2 rfl] at hlt
    cases hlt
  · rw [smallFirst, Text.firstDifference?_self] at hsmall
    cases hsmall

theorem collate_of_lowercase_eq (h : Text.lowercase v = Text.lowercase w) : collate v w = Text.compare w v := by
  rw [collate, h, (Text.compare_eq_iff _ _).2 rfl]
  rfl

theorem exists_firstDifference?_of_smallFirst (h : smallFirst v w) :
    ∃ c d, Text.firstDifference? v w = some (c, d) ∧ isSmall c ∧ ¬ isSmall d := by
  obtain ⟨⟨c, d⟩, hfirst, hcase⟩ := (Option.any_eq_true _ _).1 h
  exact ⟨c, d, hfirst, by simpa using hcase⟩

/-- Words of the same lower case are in the order of the codes where they differ first, from the greatest to the
least. -/
theorem collate_of_firstDifference? {c d : Char} (h : Text.lowercase v = Text.lowercase w)
    (hfirst : Text.firstDifference? v w = some (c, d)) : collate v w = compare d.toNat c.toNat := by
  have hswap : Text.firstDifference? w v = some (d, c) := by
    rw [Text.firstDifference?_comm, hfirst]
    rfl
  rw [collate_of_lowercase_eq h, (Text.compare_of_firstDifference? hswap).2]

theorem Clash.exists_firstDifference? (h : Clash v w) :
    ∃ c d, Text.firstDifference? v w = some (c, d) ∧ (isSmall c ∧ isSmall d = false) ∧ c.toNat < d.toNat := by
  obtain ⟨⟨c, d⟩, hfirst, hcase⟩ := (Option.any_eq_true _ _).1 h.2
  exact ⟨c, d, hfirst, by simpa using hcase⟩

/-- Words that clash are in the opposite order. -/
theorem Clash.collate_eq (h : Clash v w) : WordBefore v w ∧ collate v w = .gt := by
  obtain ⟨c, d, hfirst, hcase, hlt⟩ := h.exists_firstDifference?
  have hsmall : smallFirst v w := by simp [smallFirst, hfirst, hcase]
  refine ⟨Or.inr ⟨h.1, hsmall⟩, ?_⟩
  rw [collate_of_firstDifference? h.1 hfirst]
  exact Nat.compare_eq_gt.2 hlt

/-- All other words are in the order that is meant. -/
theorem collate_of_wordBefore (h : WordBefore v w) (hclash : ¬ Clash v w) : collate v w = .lt := by
  rcases h with hlt | ⟨hlower, hsmall⟩
  · rw [collate, hlt]
    rfl
  · obtain ⟨c, d, hfirst, hc, hd⟩ := exists_firstDifference?_of_smallFirst hsmall
    have hne : c.toNat ≠ d.toNat := fun heq =>
      (Text.compare_of_firstDifference? hfirst).1 (Char.ext (UInt32.toNat_inj.1 heq))
    have hnot : ¬ c.toNat < d.toNat := by
      intro hlt
      refine hclash ⟨hlower, ?_⟩
      simp [hfirst, hc, hd, hlt]
    rw [collate_of_firstDifference? hlower hfirst]
    exact Nat.compare_eq_lt.2 (by omega)

/-! ## Western European words -/

private theorem le_lowerCode : ∀ n < 256, n ≤ Text.lowerCode n Text.lowercaseRuns ∧
    Text.lowerCode n Text.lowercaseRuns < 256 := by
  decide +kernel

/-- The lower case of a letter with a small code is one letter, and its code is not smaller. -/
theorem exists_lower_eq_singleton {c : Char} (h : c.toNat < 256) : ∃ d, Text.lower c = [d] ∧ c.toNat ≤ d.toNat := by
  obtain ⟨hle, hlt⟩ := le_lowerCode c.toNat h
  refine ⟨Char.ofNat (Text.lowerCode c.toNat Text.lowercaseRuns), ?_, ?_⟩
  · rw [Text.lower, if_neg (by omega)]
  · rw [Text.toNat_ofNat_of_isValidChar (Or.inl (by omega))]
    exact hle

theorem lowercaseAfter_cons {c : Char} (h : c.toNat < 256) (before t : Text) :
    Text.lowercaseAfter before (c :: t) = Text.lower c ++ Text.lowercaseAfter (c :: before) t := by
  rw [Text.lowercaseAfter, if_neg (by omega)]

/-- Words of the same lower case differ by letters of the same lower case. -/
theorem lower_eq_of_firstDifference? {c d : Char} {before before' : Text} (hv : ∀ c ∈ v, c.toNat < 256)
    (hw : ∀ c ∈ w, c.toNat < 256) (h : Text.lowercaseAfter before v = Text.lowercaseAfter before' w)
    (hfirst : Text.firstDifference? v w = some (c, d)) :
    c.toNat < 256 ∧ d.toNat < 256 ∧ Text.lower c = Text.lower d := by
  induction v generalizing w before before' with
  | nil => cases hfirst
  | cons x v ih =>
    cases w with
    | nil => cases hfirst
    | cons y w =>
      obtain ⟨hx, hv⟩ := List.forall_mem_cons.1 hv
      obtain ⟨hy, hw⟩ := List.forall_mem_cons.1 hw
      rw [lowercaseAfter_cons hx, lowercaseAfter_cons hy] at h
      -- each letter has one letter as its lower case, so those of the two words stand opposite each other
      obtain ⟨x', hlowerx, -⟩ := exists_lower_eq_singleton hx
      obtain ⟨y', hlowery, -⟩ := exists_lower_eq_singleton hy
      rw [hlowerx, hlowery, List.singleton_append, List.singleton_append, List.cons.injEq] at h
      rw [Text.firstDifference?] at hfirst
      split at hfirst
      · exact ih hv hw h.2 hfirst
      · obtain ⟨rfl, rfl⟩ := Prod.mk.inj (Option.some.inj hfirst)
        exact ⟨hx, hy, by rw [hlowerx, hlowery, h.1]⟩

/-- Words of letters with small codes do not clash: there every capital comes before its small letter. -/
theorem not_clash_of_forall_lt (hv : ∀ c ∈ v, c.toNat < 256) (hw : ∀ c ∈ w, c.toNat < 256) : ¬ Clash v w := by
  intro hclash
  obtain ⟨c, d, hfirst, ⟨hsmall, -⟩, hlt⟩ := hclash.exists_firstDifference?
  obtain ⟨-, hd, hsame⟩ := lower_eq_of_firstDifference? hv hw hclash.1 hfirst
  obtain ⟨e, hlowerd, hle⟩ := exists_lower_eq_singleton hd
  have hce : c = e := by
    rw [isSmall, beq_iff_eq] at hsmall
    rw [hsmall, hlowerd, List.cons.injEq] at hsame
    exact hsame.1
  rw [hce] at hlt
  omega

/-! ## Items in the order that is meant -/

/-- The item comes before the other one by the words of a field, in one direction or the other. -/
def ItemBefore (field : Text) (descending : Bool) (a b : Json) : Prop :=
  if descending then WordBefore (wordOf field b) (wordOf field a) else WordBefore (wordOf field a) (wordOf field b)

/-- Items with the same word are in no order, in either direction. -/
theorem not_itemBefore_of_tied {descending : Bool} (h : directed descending (byWord field) a b = .eq) :
    ¬ ItemBefore field descending b a := by
  have hword : wordOf field a = wordOf field b := by
    cases descending
    · exact byWord_eq_eq_iff.1 h
    · exact (byWord_eq_eq_iff.1 h).symm
  rw [ItemBefore, hword, ite_self]
  exact not_wordBefore_self (wordOf field b)

/-- The order that is meant agrees with the order of all words if and only if none of them clash. -/
theorem forall_itemBefore_iff (descending : Bool) :
    (∀ a ∈ items, ∀ b ∈ items, ItemBefore field descending a b →
        directed descending (byWord field) a b ≠ .gt) ↔
      ∀ a ∈ items, ∀ b ∈ items, ¬ Clash (wordOf field a) (wordOf field b) := by
  have hwords : ∀ {v w : Text}, (WordBefore v w → collate v w ≠ .gt) ↔ ¬ Clash v w := by
    intro v w
    constructor
    · intro hbefore hclash
      exact hbefore hclash.collate_eq.1 hclash.collate_eq.2
    · intro hclash hbefore
      rw [collate_of_wordBefore hbefore hclash]
      decide
  cases descending
  · exact forall₄_congr fun a _ b _ => hwords
  · constructor
    · intro hbefore a ha b hb
      exact hwords.1 (hbefore b hb a ha)
    · intro hclash a ha b hb
      exact hwords.2 (hclash b hb a ha)

/-- Items are in the order that is meant if and only if no words of theirs clash. -/
theorem pairwise_itemBefore_iff (h : HasWords field items) (descending : Bool) :
    (sortItems ⟨field, descending⟩ items).Pairwise (fun a b => ¬ ItemBefore field descending b a) ↔
      ∀ a ∈ items, ∀ b ∈ items, ¬ Clash (wordOf field a) (wordOf field b) := by
  have hsorts := sortsBy_directed (fun a ha b hb => compareValues_of_hasWords h ha hb) descending
  have htied : items.Pairwise fun a b =>
      directed descending (byWord field) a b = .eq → ¬ ItemBefore field descending b a :=
    List.pairwise_of_forall fun a b => not_itemBefore_of_tied
  rw [hsorts.pairwise_iff, and_iff_left htied]
  exact forall_itemBefore_iff descending

/-- Items with words of letters with small codes are in the order that is meant. -/
theorem pairwise_itemBefore_of_forall_lt (h : HasWords field items)
    (hcodes : ∀ a ∈ items, ∀ c ∈ wordOf field a, c.toNat < 256) (descending : Bool) :
    (sortItems ⟨field, descending⟩ items).Pairwise (fun a b => ¬ ItemBefore field descending b a) :=
  (pairwise_itemBefore_iff h descending).2 fun a ha b hb => not_clash_of_forall_lt (hcodes a ha) (hcodes b hb)

/-! ## Words and numbers -/

/-- The items of a field are put in order by a comparison, in both directions, and the two are opposite if no items
are equal. -/
structure SortsBothWays (cmp : Json → Json → Ordering) (field : Text) (items : List Json) : Prop where
  sorts : ∀ descending, SortsBy (directed descending cmp) items (sortItems ⟨field, descending⟩ items)
  reverse : items.Pairwise (fun a b => cmp a b ≠ .eq) →
    sortItems ⟨field, true⟩ items = (sortItems ⟨field, false⟩ items).reverse

theorem sortsBothWays {cmp : Json → Json → Ordering} [TransCmp cmp]
    (h : ∀ a ∈ items, ∀ b ∈ items, compareValues (fieldOf field a) (fieldOf field b) = cmp a b) :
    SortsBothWays cmp field items where
  sorts := sortsBy_directed h
  reverse := (sortsBy_directed h false).eq_reverse (sortsBy_directed h true)

/-- Sorting is right for words and for numbers. The order of words is total and ties equal words only. Items are put
in order by their words, or by their floating-point numbers, in either direction. What is not always so is that small
letters come first: that holds if and only if no words clash. -/
theorem sortItems_sorts (field : Text) (items : List Json) :
    (TransCmp collate ∧ LawfulEqCmp collate) ∧
      (HasWords field items →
        SortsBothWays (byWord field) field items ∧
          ∀ descending, (sortItems ⟨field, descending⟩ items).Pairwise (fun a b => ¬ ItemBefore field descending b a) ↔
            ∀ a ∈ items, ∀ b ∈ items, ¬ Clash (wordOf field a) (wordOf field b)) ∧
      (HasNumbers field items → SortsBothWays (byNumber field) field items) := by
  refine ⟨⟨inferInstance, inferInstance⟩, fun hwords => ⟨?_, pairwise_itemBefore_iff hwords⟩, fun hnumbers => ?_⟩
  · exact sortsBothWays fun a ha b hb => compareValues_of_hasWords hwords ha hb
  · exact sortsBothWays fun a ha b hb => compareValues_of_hasNumbers hnumbers ha hb

/-- Sorting words and sorting numbers in both directions. -/
theorem sortItems_sorts_words_and_numbers :
    (HasWords "n".toList [wordItem "b", wordItem "A", wordItem "a"] ∧
      SortsBothWays (byWord "n".toList) "n".toList [wordItem "b", wordItem "A", wordItem "a"]) ∧
    HasNumbers "n".toList [numberItem 2, numberItem 10, numberItem 2] ∧
      SortsBothWays (byNumber "n".toList) "n".toList [numberItem 2, numberItem 10, numberItem 2] := by
  have hwords : HasWords "n".toList [wordItem "b", wordItem "A", wordItem "a"] := by
    simp only [HasWords, List.forall_mem_cons, List.not_mem_nil, IsEmpty.forall_iff, implies_true, and_true]
    exact ⟨⟨_, rfl⟩, ⟨_, rfl⟩, ⟨_, rfl⟩⟩
  have hnumbers : HasNumbers "n".toList [numberItem 2, numberItem 10, numberItem 2] := by
    simp only [HasNumbers, List.forall_mem_cons, List.not_mem_nil, IsEmpty.forall_iff, implies_true, and_true]
    exact ⟨⟨_, rfl, trivial⟩, ⟨_, rfl, trivial⟩, ⟨_, rfl, trivial⟩⟩
  exact ⟨⟨hwords, ((sortItems_sorts _ _).2.1 hwords).1⟩, hnumbers, (sortItems_sorts _ _).2.2 hnumbers⟩

/-- The capital of `ÿ` has a greater code, so it stays in front of the small letter. -/
theorem sortItems_capital_first :
    WordBefore "ÿ".toList "Ÿ".toList ∧
      sortItems ⟨"n".toList, false⟩ [wordItem "Ÿ", wordItem "ÿ"] = [wordItem "Ÿ", wordItem "ÿ"] :=
  ⟨by decide +kernel, by rfl⟩

end Pagewright.Loop
