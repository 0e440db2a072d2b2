import Pagewright.Proofs.Binary64.Rounding
import Pagewright.Proofs.Json.Fields

/-!
# Values that can be written

Not every element of `Json` is a value that a site has: a floating-point number in a value is finite and in the
form that rounding gives it, and the fields of an object are in the order of their names. `Json.Valid` says so
for a value and all that it holds.
-/

namespace Pagewright

/-- A whole number, or a finite number of the format. -/
def Number.Valid : Number → Prop
  | .int _ => True
  | .real (.finite _ m e) => Binary64.Canonical m e
  | .real _ => False

namespace Json

mutual

/-- The numbers in a value are numbers, and the fields of its objects are in order. -/
def Valid : Json → Prop
  | null | bool _ | string _ => True
  | number n => n.Valid
  | array items => ValidItems items
  | object fields => Fields.Ascending fields ∧ ValidFields fields

/-- All values of a list are valid. -/
def ValidItems : List Json → Prop
  | [] => True
  | v :: rest => v.Valid ∧ ValidItems rest

/-- All values of the fields are valid. -/
def ValidFields : List (Text × Json) → Prop
  | [] => True
  | (_, v) :: rest => v.Valid ∧ ValidFields rest

end

/-! ## Whole numbers -/

mutual

/-- Does the value hold no whole number? -/
def isWholeFree : Json → Bool
  | number (.int _) => false
  | null | bool _ | string _ | number (.real _) => true
  | array items => isWholeFreeItems items
  | object fields => isWholeFreeFields fields

/-- Does none of the values hold a whole number? -/
def isWholeFreeItems : List Json → Bool
  | [] => true
  | v :: rest => v.isWholeFree && isWholeFreeItems rest

/-- Does none of the fields hold a whole number? -/
def isWholeFreeFields : List (Text × Json) → Bool
  | [] => true
  | (_, v) :: rest => v.isWholeFree && isWholeFreeFields rest

end

/-! ## Equality -/

mutual

theorem same_comm (v w : Json) : v.same w = w.same v := by
  match v with
  | null => cases w <;> rfl
  | bool a =>
    cases w with
    | bool b => exact Bool.beq_comm
    | _ => rfl
  | number (.int i) =>
    cases w with
    | number k =>
      cases k with
      | int j => exact Bool.beq_comm
      | real y => rfl
    | _ => rfl
  | number (.real x) =>
    cases w with
    | number k =>
      cases k with
      | int j => rfl
      | real y => exact Binary64.equals_comm x y
    | _ => rfl
  | string s =>
    cases w with
    | string t => exact Bool.beq_comm
    | _ => rfl
  | array items =>
    cases w with
    | array items' => exact sameItems_comm items items'
    | _ => rfl
  | object fields =>
    cases w with
    | object fields' => exact sameFields_comm fields fields'
    | _ => rfl

theorem sameItems_comm (a b : List Json) : sameItems a b = sameItems b a := by
  match a with
  | [] => cases b <;> rfl
  | v :: rest =>
    cases b with
    | nil => rfl
    | cons w rest' => rw [sameItems, sameItems, same_comm v w, sameItems_comm rest rest']

theorem sameFields_comm (a b : List (Text × Json)) : sameFields a b = sameFields b a := by
  match a with
  | [] => cases b <;> rfl
  | (k, v) :: rest =>
    cases b with
    | nil => rfl
    | cons f rest' =>
      obtain ⟨l, w⟩ := f
      rw [sameFields, sameFields, same_comm v w, sameFields_comm rest rest', Bool.beq_comm]

end

end Json

end Pagewright
