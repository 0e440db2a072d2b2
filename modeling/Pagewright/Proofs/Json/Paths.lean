import Pagewright.Json.Display
import Pagewright.Proofs.Text.Occurrence
import Pagewright.Proofs.Text.Splitting

/-!
# Where paths lead

A path is followed from a value, or looked up in the fields of a scope, where a field whose own name is the path comes
first. There is one notion of a path behind both (`Json.Leads`): its parts are names of fields and positions in arrays,
from the outside inwards. In a scope whose own names have no dots the two ways find the same value, and a path that is
put together from two leads where the second part leads from the end of the first (`Fields.lookup?_leads`).
-/

namespace Pagewright

/-! ## Paths from a value -/

namespace Json

variable {v w : Json}

/-- The parts of a path lead from one value to another one inside it. -/
inductive Leads : Json → List Text → Json → Prop
  | here (v : Json) : Leads v [] v
  | field {fields : Fields} {key : Text} {v w : Json} {parts : List Text} (hfield : Fields.get? key fields = some v)
      (h : Leads v parts w) : Leads (object fields) (key :: parts) w
  | item {items : List Json} {key : Text} {i : Nat} {v w : Json} {parts : List Text} (hindex : Text.index? key = some i)
      (hitem : items[i]? = some v) (h : Leads v parts w) : Leads (array items) (key :: parts) w

theorem descend?_eq_some_iff {parts : List Text} : v.descend? parts = some w ↔ Leads v parts w := by
  constructor
  · intro h
    induction parts generalizing v with
    | nil =>
      obtain rfl := Option.some.inj h
      exact .here v
    | cons key parts ih =>
      obtain ⟨u, hchild, hu⟩ := Option.bind_eq_some_iff.1 h
      cases v with
      | object fields => exact .field hchild (ih hu)
      | array items =>
        obtain ⟨i, hindex, hitem⟩ := Option.bind_eq_some_iff.1 hchild
        exact .item hindex hitem (ih hu)
      | null | bool | number | string => cases hchild
  · intro h
    induction h with
    | here v => rfl
    | @field fields key v w parts hfield _ ih =>
      have hchild : (object fields).child? key = some v := hfield
      rw [descend?, hchild, Option.bind_some, ih]
    | @item items key i v w parts hindex hitem _ ih =>
      have hchild : (array items).child? key = some v := by rw [child?, hindex, Option.bind_some, hitem]
      rw [descend?, hchild, Option.bind_some, ih]

theorem descend?_append (v : Json) (parts parts' : List Text) :
    v.descend? (parts ++ parts') = (v.descend? parts).bind fun w => w.descend? parts' := by
  induction parts generalizing v with
  | nil => rfl
  | cons key parts ih =>
    rw [List.cons_append, descend?, descend?, Option.bind_assoc]
    exact Option.bind_congr fun w _ => ih w

/-- A path behind a dot is followed from where the path before it leads. -/
theorem navigate?_append_dot (v : Json) (p q : Text) :
    v.navigate? (p ++ '.' :: q) = (v.navigate? p).bind fun w => w.navigate? q := by
  rw [navigate?, Text.split_append_sep, descend?_append]
  rfl

end Json

/-! ## Paths in a scope -/

namespace Fields

variable {fields : Fields} {path : Text}

/-- No field has a dot in its own name. -/
def Dotless (fields : Fields) : Prop := ∀ f ∈ fields, '.' ∉ f.1

instance (fields : Fields) : Decidable fields.Dotless := inferInstanceAs (Decidable (∀ f ∈ fields, _))

theorem Dotless.get?_eq_none (h : fields.Dotless) (hpath : '.' ∈ path) : get? path fields = none := by
  induction fields with
  | nil => rfl
  | cons f rest ih =>
    obtain ⟨hf, hrest⟩ := List.forall_mem_cons.1 h
    have hne : f.1 ≠ path := by
      rintro rfl
      exact hf hpath
    rw [get?, if_neg hne, ih hrest]

/-- Without dots in the names of the fields, a path in the scope is a path from the object that it is. -/
theorem Dotless.lookup?_eq_navigate? (h : fields.Dotless) (path : Text) :
    fields.lookup? path = (Json.object fields).navigate? path := by
  by_cases hdot : '.' ∈ path
  · -- no field has the name of the whole path, so its first part is looked up
    obtain ⟨head, rest, rfl, hhead⟩ := List.eq_append_cons_of_mem hdot
    rw [lookup?, h.get?_eq_none hdot, Text.splitOnce?_append hhead, Json.navigate?, Text.split_append_cons hhead]
    rfl
  · rw [lookup?, Text.splitOnce?_of_notMem hdot, Json.navigate?, Text.split_of_notMem hdot]
    show _ = (get? path fields).bind some
    cases get? path fields <;> rfl

/-- In a scope whose own names have no dots, whatever the values below them are, looking a path
up is following it from the object, and finds what the parts of the path lead to. A path put together from two is
found by following the second from what the first one finds, and not found where that is not. -/
theorem lookup?_leads (h : fields.Dotless) (p : Text) :
    fields.lookup? p = (Json.object fields).navigate? p ∧
      (∀ v, fields.lookup? p = some v ↔ (Json.object fields).Leads (Text.split '.' p) v) ∧
      ∀ q, fields.lookup? (p ++ '.' :: q) = (fields.lookup? p).bind fun v => v.navigate? q := by
  simp only [h.lookup?_eq_navigate?]
  exact ⟨trivial, fun v => Json.descend?_eq_some_iff, fun q => Json.navigate?_append_dot _ p q⟩

/-- A scope with an array, names without characters, and a name with a dot below the first level. -/
def authorScope : Fields :=
  [([], .object [([], .bool true)]),
    ("author".toList, .object [("links".toList, .array [.null, .object [("name".toList, .string "Ann".toList)]]),
      ("links.1".toList, .null)])]

/-- The path through the array is found in two steps, and the name with a dot is passed over. -/
theorem lookup?_leads_author :
    authorScope.Dotless ∧
      (authorScope.lookup? "author.links".toList).bind (fun v => v.navigate? "+1.name".toList) =
        some (.string "Ann".toList) ∧
      authorScope.lookup? "author.links.+1.name".toList = some (.string "Ann".toList) ∧
      (Json.object authorScope).Leads ["author".toList, "links".toList, "+1".toList, "name".toList]
        (.string "Ann".toList) ∧
      authorScope.lookup? ".".toList = (Json.object authorScope).navigate? ".".toList := by
  have hdotless : authorScope.Dotless := by decide
  have hfound : (authorScope.lookup? "author.links".toList).bind (fun v => v.navigate? "+1.name".toList) =
      some (.string "Ann".toList) := rfl
  have hjoined : authorScope.lookup? "author.links.+1.name".toList = some (.string "Ann".toList) :=
    ((lookup?_leads hdotless "author.links".toList).2.2 "+1.name".toList).trans hfound
  exact ⟨hdotless, hfound, hjoined, ((lookup?_leads hdotless _).2.1 _).1 hjoined, (lookup?_leads hdotless _).1⟩

end Fields

end Pagewright
