import Pagewright.Proofs.Binary64.WholeText
import Pagewright.Proofs.Condition.Laws
import Pagewright.Proofs.Loop.Window

/-!
# Lengths and indexes

An index is a number that is turned into a text and read as an index again; the length of a value is a number of its
own. Four things live here:

* what the text of a whole number is read as: a text with anything but digits in it is no index
  (`Text.index?_of_not_isDigit`), and digits are an index on the right side of every length that is exact
  (`Text.exists_index?_lt_iff`);
* what can be read from a value at an index and what its length says (`Operand.slots`, `Operand.extent`);
* the lengths of a text in characters and in units, which are the same if and only if no character takes two units
  (`Text.length_units_eq_iff`);
* so an index is missing if and only if it is not below the length, for all arrays and for the texts of such characters
  only (`Condition.length_covers_iff`).
-/

namespace Pagewright

/-! ## Indexes -/

namespace Text

open Binary64 (digitsValue plainText powerOfTwo)

variable {t : Text} {b i n : Nat} {c : Char}

theorem isDigit_of_natOfDigits? (h : natOfDigits? 10 t = some n) : ∀ c ∈ t, isDigit c := by
  intro c hc
  obtain ⟨v, hv⟩ := exists_isDigitOf_of_mem h hc
  exact hv.isDigit

/-- Digits are read as the index that they stand for. -/
theorem index?_of_isDigit (hne : t ≠ []) (h : ∀ c ∈ t, isDigit c) :
    index? t = if digitsValue t ≤ wordMax then some (digitsValue t) else none := by
  have hplus : ∀ r, t ≠ '+' :: r := by
    rintro r rfl
    exact absurd (h '+' List.mem_cons_self) (by decide)
  rw [index?]
  · rw [natOfDigits?_eq hne h]
  · exact hplus

/-- A text with a character that is no digit, and without a plus sign, is no index. -/
theorem index?_of_not_isDigit (hplus : '+' ∉ t) (h : ¬ ∀ c ∈ t, isDigit c) : index? t = none := by
  have hread : natOfDigits? 10 t = none := by
    cases hn : natOfDigits? 10 t with
    | none => rfl
    | some n => exact absurd (isDigit_of_natOfDigits? hn) h
  rw [index?]
  · rw [hread]
  · rintro r rfl
    exact hplus List.mem_cons_self

/-- A whole number is read as an index below the same bounds, as far as integers are exact. -/
theorem exists_index?_lt_iff (hb : b ≤ powerOfTwo 53) :
    (∃ g, index? (plainText (.ofInt i)) = some g ∧ g < b) ↔ i < b := by
  -- digits may still stand for another number than the one that is meant, but for one on the same side of the length
  by_cases hdigits : ∀ c ∈ plainText (.ofInt i), isDigit c
  · rw [index?_of_isDigit (Binary64.plainText_ne_nil i) hdigits, ← Binary64.digitsValue_plainText_lt_iff hdigits hb]
    constructor
    · rintro ⟨g, hg, hlt⟩
      split at hg
      · exact Option.some.inj hg ▸ hlt
      · cases hg
    · intro hlt
      have hword : powerOfTwo 53 ≤ wordMax := by decide
      exact ⟨_, if_pos (by omega), hlt⟩
  · have hplus : '+' ∉ plainText (.ofInt i) := fun hmem => by
      rcases Binary64.mem_plainText hmem with h | h
      · exact absurd h (by decide)
      · exact absurd h (by decide)
    rw [index?_of_not_isDigit hplus hdigits]
    refine iff_of_false nofun fun hlt => hdigits (Binary64.isDigit_plainText (hlt.trans_le hb))

/-! ## Lengths -/

theorem length_charUnits (c : Char) : (charUnits c).length = if c.toNat < 0x10000 then 1 else 2 := by
  unfold charUnits
  dsimp only
  split <;> rfl

theorem length_le_length_units (t : Text) : t.length ≤ (units t).length := by
  induction t with
  | nil => exact Nat.le_refl 0
  | cons c t ih =>
    have hone : 1 ≤ (charUnits c).length := by
      rw [length_charUnits]
      split <;> decide
    rw [units, List.flatMap_cons, List.length_append, List.length_cons, ← units]
    omega

/-- A text has as many units as characters if and only if none of them takes two units. -/
theorem length_units_eq_iff (t : Text) : (units t).length = t.length ↔ ∀ c ∈ t, c.toNat < 0x10000 := by
  induction t with
  | nil => exact iff_of_true rfl (List.forall_mem_nil _)
  | cons c t ih =>
    have hrest := length_le_length_units t
    rw [List.forall_mem_cons, ← ih, units, List.flatMap_cons, List.length_append, List.length_cons, ← units,
      length_charUnits]
    split
    · next hnarrow => omega
    · next hwide => omega

end Text

namespace Condition

open Operand

variable {context : Fields} {target key : Expr} {v w : Operand} {name : Text} {i : Nat}

/-! ## What can be read -/

/-- Has the value a length? -/
def Operand.isIndexed : Operand → Bool
  | array _ | string _ => true
  | _ => false

/-- What can be read from a value at an index. -/
def Operand.slots : Operand → List Operand
  | array items => items.map ofJson
  | string t => t.map fun c => string [c]
  | _ => []

/-- What the length of a value says. -/
def Operand.extent : Operand → Nat
  | array items => items.length
  | string t => (Text.units t).length
  | _ => 0

theorem Operand.property_length (hv : v.isIndexed) :
    v.property "length".toList = .ok (number (.ofInt v.extent)) := by
  cases v with
  | array items =>
    rw [property, if_pos rfl]
    rfl
  | string t =>
    rw [property, if_pos rfl]
    rfl
  | undefined | null | bool | number | object => cases hv

theorem Operand.property_of_ne_length (hv : v.isIndexed) (hname : name ≠ "length".toList) :
    v.property name = .ok (((Text.index? name).bind (v.slots[·]?)).getD undefined) := by
  cases v with
  | array items =>
    rw [property, if_neg hname]
    cases Text.index? name with
    | none => rfl
    | some g => exact congrArg (fun slot => Except.ok (slot.getD undefined)) List.getElem?_map.symm
  | string t =>
    rw [property, if_neg hname]
    cases Text.index? name with
    | none => rfl
    | some g => exact congrArg (fun slot => Except.ok (slot.getD undefined)) List.getElem?_map.symm
  | undefined | null | bool | number | object => cases hv

theorem Operand.strictEquals_undefined_iff : strictEquals w undefined ↔ w = undefined := by
  cases w <;> simp [strictEquals]

/-- What is there is not missing. -/
theorem Operand.ne_undefined_of_mem_slots (hw : w ∈ v.slots) : w ≠ undefined := by
  cases v with
  | array items =>
    obtain ⟨item, -, rfl⟩ := List.mem_map.1 hw
    cases item <;> exact nofun
  | string t =>
    obtain ⟨c, -, rfl⟩ := List.mem_map.1 hw
    exact nofun
  | undefined | null | bool | number | object => cases hw

/-- At the index that a whole number is, there is something just if the number is below the number of slots. -/
theorem Operand.exists_property_index (hv : v.isIndexed) (hcount : v.slots.length ≤ Binary64.powerOfTwo 53) (i : Nat) :
    ∃ w, v.property (Binary64.ofInt i).plainText = .ok w ∧ (strictEquals w undefined = false ↔ i < v.slots.length) := by
  -- no number is written with the letters of the word, so the text is looked up as an index
  have hname : (Binary64.ofInt i).plainText ≠ "length".toList := by
    intro heq
    have hletter : 'l' ∈ (Binary64.ofInt i).plainText := heq ▸ List.mem_cons_self
    rcases Binary64.mem_plainText hletter with h | h
    · exact absurd h (by decide)
    · exact absurd h (by decide)
  have hindex := Text.exists_index?_lt_iff (i := i) hcount
  refine ⟨_, property_of_ne_length hv hname, ?_⟩
  cases hslot : (Text.index? (Binary64.ofInt i).plainText).bind (v.slots[·]?) with
  | some w =>
    obtain ⟨g, hg, hw⟩ := Option.bind_eq_some_iff.1 hslot
    obtain ⟨hlt, hget⟩ := List.getElem?_eq_some_iff.1 hw
    have hmem : w ∈ v.slots := hget ▸ List.getElem_mem hlt
    have hne : ¬ strictEquals w undefined := fun h => ne_undefined_of_mem_slots hmem (strictEquals_undefined_iff.1 h)
    exact iff_of_true (Bool.eq_false_iff.2 hne) (hindex.1 ⟨g, hg, hlt⟩)
  | none =>
    refine iff_of_false nofun fun hlt => ?_
    obtain ⟨g, hg, hglt⟩ := hindex.2 hlt
    rw [hg, Option.bind_some, List.getElem?_eq_getElem hglt] at hslot
    cases hslot

theorem Operand.length_slots_le (v : Operand) : v.slots.length ≤ v.extent := by
  cases v with
  | array items => exact (List.length_map _).le
  | string t => exact (List.length_map _).le.trans (Text.length_le_length_units t)
  | undefined | null | bool | number | object => exact Nat.le_refl 0

/-- The length counts what can be read if and only if the value is no text with characters of two units. -/
theorem Operand.length_slots_eq_iff : v.slots.length = v.extent ↔ ∀ t, v = string t → ∀ c ∈ t, c.toNat < 0x10000 := by
  cases v with
  | array items => exact iff_of_true (List.length_map _) nofun
  | string t =>
    have hlength : (string t).slots.length = t.length := List.length_map _
    rw [hlength, eq_comm, extent, Text.length_units_eq_iff]
    exact ⟨fun h u hu => Operand.string.inj hu ▸ h, fun h => h t rfl⟩
  | undefined | null | bool | number | object => exact iff_of_true rfl nofun

/-! ## Conditions about an index -/

/-- The condition that nothing is at an index, `v[i] === undefined`. -/
def missing (target key : Expr) : Expr := .binary .strictEq (.index target key) .undefined

/-- The condition that an index is below the length, `i < v.length`. -/
def below (target key : Expr) : Expr := .binary .lt key (.member target "length".toList)

/-- The two conditions have values, and something is at the index just if it is below the length. -/
def Agree (context : Fields) (target key : Expr) : Prop :=
  ∃ absent within, (missing target key).eval context = .ok (.bool absent) ∧
    (below target key).eval context = .ok (.bool within) ∧ (absent = false ↔ within = true)

/-- Whole numbers are compared with a length as they are, as far as integers are exact. -/
theorem holds_lt_ofInt_iff {n : Nat} (hn : n ≤ Binary64.powerOfTwo 53) :
    Operator.lt.holds (number (.ofInt i)) (number (.ofInt n)) ↔ i < n := by
  have horder : order? (number (.ofInt i)) (number (.ofInt n)) =
      some (compare (Binary64.nearest i) (Binary64.nearest n)) := by
    show (Binary64.ofInt i).compare? (Binary64.ofInt n) = _
    rw [Binary64.compare?, Binary64.position?_ofInt, Binary64.position?_ofInt]
    rfl
  rw [Operator.holds, horder, beq_iff_eq, Option.some.injEq, Int.compare_eq_lt, Binary64.nearest_lt_iff hn]

section

variable (htarget : target.eval context = .ok v) (hv : v.isIndexed) (hlength : v.extent ≤ Binary64.powerOfTwo 53)
include htarget hv hlength

/-- The two conditions agree on an index that is below both lengths or below none. -/
theorem agree_iff (hkey : key.eval context = .ok (.number (.ofInt i))) :
    Agree context target key ↔ (i < v.slots.length ↔ i < v.extent) := by
  have hcount := (v.length_slots_le).trans hlength
  obtain ⟨w, hproperty, hw⟩ := exists_property_index hv hcount i
  have hindex : (Expr.index target key).eval context = .ok w := by
    rw [Expr.eval, htarget, hkey]
    have htext : (number (.ofInt i)).text = (Binary64.ofInt i).plainText := rfl
    show v.property (number (.ofInt i)).text = _
    rw [htext, hproperty]
  have hmember : (Expr.member target "length".toList).eval context = .ok (number (.ofInt v.extent)) := by
    rw [Expr.eval, htarget]
    exact property_length hv
  have hmissing : (missing target key).eval context = .ok (.bool (strictEquals w undefined)) := by
    rw [missing, Expr.eval_binary ⟨by decide, by decide⟩, hindex]
    rfl
  have hbelow : (below target key).eval context =
      .ok (.bool (Operator.lt.holds (number (.ofInt i)) (number (.ofInt v.extent)))) := by
    rw [below, Expr.eval_binary ⟨by decide, by decide⟩, hkey, hmember]
    rfl
  have hlt := holds_lt_ofInt_iff (i := i) hlength
  generalize Operator.lt.holds (number (.ofInt i)) (number (.ofInt v.extent)) = within at hbelow hlt
  rw [← hw, ← hlt]
  constructor
  · rintro ⟨absent, within, habsent, hwithin, hagree⟩
    rw [hmissing] at habsent
    rw [hbelow] at hwithin
    cases habsent
    cases hwithin
    exact hagree
  · exact fun hagree => ⟨_, _, hmissing, hbelow, hagree⟩

/-- Nothing is at an index if and only if it is not below the length, for arrays and for texts without characters of two
units: in other texts the length counts units, and an index characters. -/
theorem length_covers_iff :
    (∀ (i : Nat) (key : Expr), key.eval context = .ok (.number (.ofInt i)) → Agree context target key) ↔
      ∀ t, v = .string t → ∀ c ∈ t, c.toNat < 0x10000 := by
  rw [← length_slots_eq_iff]
  constructor
  · intro hagree
    -- the first index at which nothing is
    have hend : (Expr.number (.ofInt v.slots.length)).eval context = .ok (.number (.ofInt v.slots.length)) := rfl
    have hlt := (agree_iff htarget hv hlength hend).1 (hagree _ _ hend)
    have hle := v.length_slots_le
    omega
  · intro hlengths i key hkey
    rw [agree_iff htarget hv hlength hkey, hlengths]

end

theorem length_covers_accented :
    (Expr.ident ['v']).eval [(['v'], .string ['é', 'a'])] = .ok (.string ['é', 'a']) ∧
      (Operand.string ['é', 'a']).isIndexed ∧ (Operand.string ['é', 'a']).extent ≤ Binary64.powerOfTwo 53 ∧
      Agree [(['v'], .string ['é', 'a'])] (.ident ['v']) (.number (.ofInt 1)) := by
  have heval : (Expr.ident ['v']).eval [(['v'], .string ['é', 'a'])] = .ok (.string ['é', 'a']) := rfl
  have hlength : (Operand.string ['é', 'a']).extent ≤ Binary64.powerOfTwo 53 := by decide
  have hnarrow : ∀ t, Operand.string ['é', 'a'] = .string t → ∀ c ∈ t, c.toNat < 0x10000 := by
    rintro t ⟨rfl⟩
    decide
  exact ⟨heval, rfl, hlength, (length_covers_iff heval rfl hlength).2 hnarrow 1 _ rfl⟩

/-- A character of two units is one character for the index and two for the length: behind it nothing is there, and the
index is below the length. -/
theorem evaluate_length_of_wide :
    evaluate "(v[1] === undefined) === !(1 < v.length)".toList [(['v'], .string [Char.ofNat 0x1F600])] ['a'] = .ok false ∧
      evaluate "v[1] === undefined".toList [(['v'], .string [Char.ofNat 0x1F600])] ['a'] = .ok true ∧
      evaluate "1 < v.length".toList [(['v'], .string [Char.ofNat 0x1F600])] ['a'] = .ok true := by
  decide +kernel

end Condition

end Pagewright
