import Mathlib.Data.List.Infix
import Pagewright.Template.Tag

/-!
# What a tag keeps of its text

The values of the attributes are parts of the text of the tag, and no character is in two of them. So a
character occurs in all values together at most as often as in the text (`OpenTag.count_parseFrom_le`).

A name that is written twice keeps its last value. Then the first value is lost, and what it had of the text
is missing in the end (`OpenTag.get?_parseFrom`).
-/

namespace Pagewright

variable {name key value : Text}

/-! ## Attributes -/

namespace Attributes

/-- How often a character occurs in the values. -/
def count (c : Char) : Attributes → Nat
  | [] => 0
  | (_, v) :: as => v.count c + count c as

theorem count_cons (c : Char) (a : Text × Text) (as : Attributes) :
    count c (a :: as) = a.2.count c + count c as := rfl

theorem get?_put_self (name value : Text) (as : Attributes) : (as.put name value).get? name = some value := by
  induction as with
  | nil => exact if_pos rfl
  | cons a as ih =>
    obtain ⟨k, v⟩ := a
    rw [put]
    split
    · next hk => exact if_pos hk
    · next hk => rw [get?, if_neg hk, ih]

theorem get?_put_of_ne (h : key ≠ name) (as : Attributes) : (as.put key value).get? name = as.get? name := by
  induction as with
  | nil => exact if_neg h
  | cons a as ih =>
    obtain ⟨k, v⟩ := a
    rw [put]
    split
    · next hk => rw [get?, get?, if_neg (hk ▸ h), if_neg (hk ▸ h)]
    · rw [get?, get?, ih]

theorem mem_of_get?_eq_some {as : Attributes} (h : as.get? name = some value) : (name, value) ∈ as := by
  induction as with
  | nil => cases h
  | cons a as ih =>
    obtain ⟨k, v⟩ := a
    rw [get?] at h
    split at h
    · next hk =>
      obtain rfl := Option.some.inj h
      exact hk ▸ List.mem_cons_self
    · exact List.mem_cons_of_mem _ (ih h)

theorem get?_eq_none_of_notMem {as : Attributes} (h : name ∉ as.map Prod.fst) : as.get? name = none := by
  cases hvalue : as.get? name with
  | none => rfl
  | some value => exact absurd (List.mem_map_of_mem (mem_of_get?_eq_some hvalue)) h

theorem get?_of_mem {as : Attributes} (hnodup : (as.map Prod.fst).Nodup) (h : (name, value) ∈ as) :
    as.get? name = some value := by
  induction as with
  | nil => cases h
  | cons a as ih =>
    obtain ⟨k, v⟩ := a
    rw [List.map_cons, List.nodup_cons] at hnodup
    rcases List.mem_cons.1 h with heq | h
    · obtain ⟨rfl, rfl⟩ := Prod.mk.inj heq
      exact if_pos rfl
    · have hk : k ≠ name := by
        rintro rfl
        have hmem : k ∈ as.map Prod.fst := List.mem_map_of_mem h
        exact hnodup.1 hmem
      rw [get?, if_neg hk]
      exact ih hnodup.2 h

/-- Attributes of different names have the same values in every order. -/
theorem get?_perm {as as' : Attributes} (h : as.Perm as') (hnodup : (as.map Prod.fst).Nodup) (name : Text) :
    as.get? name = as'.get? name := by
  have hnodup' : (as'.map Prod.fst).Nodup := (h.map Prod.fst).nodup_iff.1 hnodup
  apply Option.ext
  intro value
  constructor
  · intro hvalue
    exact get?_of_mem hnodup' (h.mem_iff.1 (mem_of_get?_eq_some hvalue))
  · intro hvalue
    exact get?_of_mem hnodup (h.mem_iff.2 (mem_of_get?_eq_some hvalue))

/-- A value that is put in takes the place of the one that was there. -/
theorem count_put (name value : Text) (c : Char) (as : Attributes) :
    (as.put name value).count c + ((as.get? name).getD []).count c = as.count c + value.count c := by
  induction as with
  | nil => exact Nat.add_comm _ _
  | cons a as ih =>
    obtain ⟨k, v⟩ := a
    rw [put, get?]
    split
    · rw [count_cons, count_cons]
      show value.count c + count c as + v.count c = v.count c + count c as + value.count c
      omega
    · rw [count_cons, count_cons]
      omega

theorem count_put_le (name value : Text) (c : Char) (as : Attributes) :
    (as.put name value).count c ≤ as.count c + value.count c := by
  have := count_put name value c as
  omega

end Attributes

/-! ## Reading -/

namespace OpenTag

variable {read : Attributes} {t rest : Text} {tag : OpenTag} {c : Char}

theorem count_attributeValue?_le (h : attributeValue? t = some (value, rest)) :
    value.count c + rest.count c ≤ t.count c := by
  cases t with
  | nil =>
    obtain ⟨rfl, rfl⟩ := Prod.mk.inj (Option.some.inj h)
    exact le_rfl
  | cons d r =>
    rw [attributeValue?] at h
    split at h
    · rw [splitOnce?_eq_append h]
      simp only [List.count_cons, List.count_append]
      omega
    · have happ := bareValue_append (d :: r)
      rw [Option.some.inj h] at happ
      rw [← happ, List.count_append]

private theorem suffix_behindName {d : Char} {r r' : Text}
    (h : Text.trimStart (r.dropWhile isNameChar) = r') : r' <:+ d :: r :=
  h ▸ (List.dropWhile_suffix _).trans ((List.dropWhile_suffix _).trans (List.suffix_cons d r))

private theorem count_valued_le {d e : Char} {r r' : Text}
    (hr : Text.trimStart (r.dropWhile isNameChar) = e :: r')
    (hv : attributeValue? (Text.trimStart r') = some (value, rest)) :
    value.count c + rest.count c ≤ (d :: r).count c := by
  have hsuf : Text.trimStart r' <:+ d :: r :=
    (List.dropWhile_suffix _).trans ((List.suffix_cons e r').trans (suffix_behindName hr))
  exact (count_attributeValue?_le hv).trans (hsuf.sublist.count_le c)

/-- The values of a tag are disjoint parts of its text. -/
theorem count_parseFrom_le (h : parseFrom read t = some (tag, rest)) :
    tag.attributes.count c + rest.count c ≤ read.count c + t.count c := by
  fun_induction parseFrom read t with
  | case1 => cases h
  | case2 read d r _ ih =>
    have := (List.suffix_cons d r).sublist.count_le c
    have := ih h
    omega
  | case3 read d r =>
    obtain ⟨rfl, rfl⟩ := Prod.mk.inj (Option.some.inj h)
    exact Nat.add_le_add_left ((List.suffix_cons _ _).sublist.count_le c) _
  | case4 read d r =>
    obtain ⟨rfl, rfl⟩ := Prod.mk.inj (Option.some.inj h)
    exact Nat.add_le_add_left (((List.tail_suffix r).trans (List.suffix_cons d r)).sublist.count_le c) _
  | case5 => cases h
  | case6 => cases h
  | case7 read d r _ _ _ _ name r' value r'' hv hr ih =>
    have hput := Attributes.count_put_le name value c read
    have hvalued := count_valued_le (c := c) (d := d) hr hv
    have := ih h
    omega
  | case8 read d r _ _ _ _ name d' r' hr _ ih =>
    have hput := Attributes.count_put_le name [] c read
    have hrest := (suffix_behindName (d := d) hr).sublist.count_le c
    rw [List.count_nil] at hput
    have := ih h
    omega
  | case9 read d r _ _ _ _ ih =>
    have := (List.suffix_cons d r).sublist.count_le c
    have := ih h
    omega

/-- An attribute keeps its value to the end of the tag, or the value is lost. -/
theorem get?_parseFrom (h : parseFrom read t = some (tag, rest)) (hold : read.get? name = some value) :
    tag.attributes.get? name = some value ∨
      tag.attributes.count c + value.count c ≤ read.count c + t.count c := by
  -- a name that comes again: what is put in its place, and what is still to come, is all there is
  have hagain : ∀ {read' : Attributes} {t' new : Text}, read'.get? name = some value →
      parseFrom (read'.put name new) t' = some (tag, rest) →
        tag.attributes.count c + value.count c ≤ read'.count c + new.count c + t'.count c := by
    intro read' t' new hold' h'
    have hput := Attributes.count_put name new c read'
    have hle := count_parseFrom_le (c := c) h'
    rw [hold', Option.getD_some] at hput
    omega
  fun_induction parseFrom read t with
  | case1 => cases h
  | case2 read d r _ ih =>
    have := (List.suffix_cons d r).sublist.count_le c
    exact (ih h hold).imp_right fun hle => by omega
  | case3 =>
    obtain ⟨rfl, rfl⟩ := Prod.mk.inj (Option.some.inj h)
    exact Or.inl hold
  | case4 =>
    obtain ⟨rfl, rfl⟩ := Prod.mk.inj (Option.some.inj h)
    exact Or.inl hold
  | case5 => cases h
  | case6 => cases h
  | case7 read d r _ _ _ _ key r' new r'' hv hr ih =>
    have hvalued := count_valued_le (c := c) (d := d) hr hv
    by_cases hkey : key = name
    · subst hkey
      have := hagain hold h
      exact Or.inr (by omega)
    · have hput := Attributes.count_put_le key new c read
      rw [← Attributes.get?_put_of_ne hkey read] at hold
      exact (ih h hold).imp_right fun hle => by omega
  | case8 read d r _ _ _ _ key d' r' hr _ ih =>
    have hrest := (suffix_behindName (d := d) hr).sublist.count_le c
    by_cases hkey : key = name
    · subst hkey
      have := hagain hold h
      rw [List.count_nil] at this
      exact Or.inr (by omega)
    · have hput := Attributes.count_put_le key [] c read
      rw [List.count_nil] at hput
      rw [← Attributes.get?_put_of_ne hkey read] at hold
      exact (ih h hold).imp_right fun hle => by omega
  | case9 read d r _ _ _ _ ih =>
    have := (List.suffix_cons d r).sublist.count_le c
    exact (ih h hold).imp_right fun hle => by omega

end OpenTag

end Pagewright
