import Mathlib.Data.List.Basic
import Pagewright.Json.Basic
import Pagewright.Proofs.Text.Order

/-!
# Fields in the order of their names

The names of the fields of an object are in ascending order (`Fields.Ascending`), and so there is no name
twice. Fields that are put in one after the other are where they belong (`Fields.get?_foldl_insert`), and fields
that are in order already stay as they are (`Fields.ofList_of_ascending`).
-/

namespace Pagewright

namespace Fields

variable {name k : Text} {v : Json} {fields rest : Fields}

/-- Each name comes before the ones behind it. -/
def Ascending (fields : Fields) : Prop := fields.Pairwise fun f g => Text.compare f.1 g.1 = .lt

/-! ## Fields by name -/

theorem get?_insert (name k : Text) (v : Json) (fields : Fields) :
    get? name (insert k v fields) = if k = name then some v else get? name fields := by
  induction fields with
  | nil => rfl
  | cons f rest ih =>
    obtain ⟨l, w⟩ := f
    unfold insert
    split
    · rfl
    · next h =>
      have hkl : k = l := (Text.compare_eq_iff k l).1 h
      subst hkl
      simp only [get?]
      split <;> rfl
    · next h =>
      have hkl : k ≠ l := by
        rintro rfl
        rw [(Text.compare_eq_iff k k).2 rfl] at h
        cases h
      simp only [get?, ih]
      by_cases hl : l = name
      · have hk : k ≠ name := fun hk => hkl (hk.trans hl.symm)
        rw [if_pos hl, if_neg hk, if_pos hl]
      · rw [if_neg hl, if_neg hl]

theorem mem_insert {f : Text × Json} (h : f ∈ insert k v fields) : f = (k, v) ∨ f ∈ fields := by
  induction fields with
  | nil => exact Or.inl (List.mem_singleton.1 h)
  | cons g rest ih =>
    obtain ⟨l, w⟩ := g
    unfold insert at h
    split at h
    · exact List.mem_cons.1 h
    · exact (List.mem_cons.1 h).imp_right (List.mem_cons_of_mem _)
    · rcases List.mem_cons.1 h with rfl | h
      · exact Or.inr List.mem_cons_self
      · exact (ih h).imp_right (List.mem_cons_of_mem _)

/-- A field that is put in comes where it belongs. -/
theorem Ascending.insert (h : Ascending fields) (k : Text) (v : Json) : Ascending (insert k v fields) := by
  induction fields with
  | nil => exact List.pairwise_singleton _ _
  | cons f rest ih =>
    obtain ⟨l, w⟩ := f
    obtain ⟨hlt, hrest⟩ := List.pairwise_cons.1 h
    unfold Fields.insert
    split
    · next hk =>
      refine List.pairwise_cons.2 ⟨fun g hg => ?_, h⟩
      rcases List.mem_cons.1 hg with rfl | hg
      · exact hk
      · exact Std.TransCmp.lt_trans hk (hlt g hg)
    · next hk =>
      obtain rfl : k = l := (Text.compare_eq_iff k l).1 hk
      exact List.pairwise_cons.2 ⟨hlt, hrest⟩
    · next hk =>
      refine List.pairwise_cons.2 ⟨fun g hg => ?_, ih hrest⟩
      rcases mem_insert hg with rfl | hg
      · exact Std.OrientedCmp.lt_of_gt hk
      · exact hlt g hg

/-- A name that comes before all others is none of them. -/
theorem get?_eq_none_of_forall_lt (h : ∀ f ∈ fields, Text.compare name f.1 = .lt) : get? name fields = none := by
  induction fields with
  | nil => rfl
  | cons f rest ih =>
    obtain ⟨hf, hrest⟩ := List.forall_mem_cons.1 h
    have hne : f.1 ≠ name := by
      intro heq
      rw [heq, (Text.compare_eq_iff name name).2 rfl] at hf
      cases hf
    rw [get?, if_neg hne, ih hrest]

/-- Fields that are put in one after the other take the place of those with their names. -/
theorem get?_foldl_insert (h : Ascending fields) (context : Fields) :
    get? name (fields.foldl (fun context (k, v) => insert k v context) context) =
      (get? name fields).or (get? name context) := by
  induction fields generalizing context with
  | nil => rfl
  | cons f rest ih =>
    obtain ⟨k, v⟩ := f
    obtain ⟨hlt, hrest⟩ := List.pairwise_cons.1 h
    rw [List.foldl_cons, ih hrest, get?_insert, get?]
    by_cases hk : k = name
    · rw [if_pos hk, if_pos hk, get?_eq_none_of_forall_lt (hk ▸ hlt)]
      rfl
    · rw [if_neg hk, if_neg hk]

/-! ## Fields that are in order -/

theorem insert_of_forall_lt (h : ∀ f ∈ fields, Text.compare f.1 k = .lt) (v : Json) :
    insert k v fields = fields ++ [(k, v)] := by
  induction fields with
  | nil => rfl
  | cons f rest ih =>
    obtain ⟨hf, hrest⟩ := List.forall_mem_cons.1 h
    have hgt : Text.compare k f.1 = .gt := by
      rw [← Text.compare_swap, hf]
      rfl
    rw [insert, hgt, ih hrest]
    rfl

private theorem foldl_insert_of_ascending (h : Ascending (rest ++ fields)) :
    fields.foldl (fun fields (k, v) => insert k v fields) rest = rest ++ fields := by
  induction fields generalizing rest with
  | nil => exact (List.append_nil rest).symm
  | cons f fields ih =>
    obtain ⟨k, v⟩ := f
    have hlt : ∀ f ∈ rest, Text.compare f.1 k = .lt := fun f hf =>
      (List.pairwise_append.1 h).2.2 f hf (k, v) List.mem_cons_self
    have hassoc : rest ++ (k, v) :: fields = rest ++ [(k, v)] ++ fields := List.append_cons ..
    rw [List.foldl_cons]
    dsimp only
    rw [insert_of_forall_lt hlt, ih (hassoc ▸ h), hassoc]

/-- Fields in order are the fields of the object that they make. -/
theorem ofList_of_ascending (h : Ascending fields) : ofList fields = fields := foldl_insert_of_ascending h

end Fields

end Pagewright
