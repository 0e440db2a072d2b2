import Pagewright.Frontmatter.Document
import Pagewright.Proofs.Json.Fields

/-!
# The fields of a header

The header of a document is a YAML mapping, whose pairs are put into the fields one after the other, each where it
belongs. So the fields of a header are in the order of their names, and no name is there twice
(`Document.ascending_parseLenient`). A scalar is neither an array nor an object, whatever its tag
(`Yaml.not_isCompound_of_scalarValue?`).
-/

namespace Pagewright

/-- What every step of a fold keeps holds in the end. -/
theorem foldlM_invariant {α β : Type} {P : β → Prop} {f : β → α → Option β} {l : List α} {b b' : β}
    (hstep : ∀ b a b', P b → f b a = some b' → P b') (hb : P b) (h : l.foldlM f b = some b') : P b' := by
  induction l generalizing b with
  | nil =>
    obtain rfl := Option.some.inj h
    exact hb
  | cons a l ih =>
    rw [List.foldlM_cons, Option.bind_eq_bind, Option.bind_eq_some_iff] at h
    obtain ⟨c, hc, h⟩ := h
    exact ih (hstep b a c hb hc) h

namespace Yaml

variable {t : Text} {v : Json}

/-! ## Scalars -/

theorem isCompound_realValue (x : Binary64) : (realValue x).isCompound = false := by
  unfold realValue
  split <;> rfl

theorem not_isCompound_of_plainValue? (h : plainValue? t = some v) : v.isCompound = false := by
  unfold plainValue? at h
  split at h
  · obtain rfl := Option.some.inj h
    rfl
  · split at h
    · obtain rfl := Option.some.inj h
      rfl
    · dsimp only at h
      split at h
      on_goal 1 => split at h
      · obtain rfl := Option.some.inj h
        rfl
      · cases h
      -- beyond the whole numbers and without one: a floating-point number or a text
      all_goals
        obtain rfl := Option.some.inj h
        split
        · rfl
        · split
          · exact isCompound_realValue _
          · rfl

/-- A scalar is neither an array nor an object. -/
theorem not_isCompound_of_scalarValue? {tag : Option Text} {plain : Bool} (h : scalarValue? tag t plain = some v) :
    v.isCompound = false := by
  unfold scalarValue? at h
  split at h
  · split at h
    · exact not_isCompound_of_plainValue? h
    · obtain rfl := Option.some.inj h
      rfl
  · split_ifs at h
    · obtain ⟨b, -, rfl⟩ := Option.map_eq_some_iff.1 h
      rfl
    · split at h
      · split at h
        · obtain rfl := Option.some.inj h
          rfl
        · cases h
      · cases h
    · obtain ⟨x, -, rfl⟩ := Option.map_eq_some_iff.1 h
      exact isCompound_realValue x
    · obtain rfl := Option.some.inj h
      rfl
    · obtain rfl := Option.some.inj h
      rfl

/-! ## Mappings -/

/-- The fields of a mapping are put in their places one after the other. -/
theorem ascending_of_nodeValue? {root n : Node} {depth left left' : ℕ} {fields : Fields}
    (h : Node.value? root depth n left = some (.object fields, left')) : fields.Ascending := by
  rw [Node.value?.eq_def] at h
  dsimp only at h
  cases hfollow : follow root n left with
  | none =>
    rw [hfollow] at h
    cases h
  | some found =>
    obtain ⟨m, rest⟩ := found
    rw [hfollow] at h
    cases m with
    | reference target => cases h
    | scalar p t plain =>
      obtain ⟨v, hv, heq⟩ := Option.map_eq_some_iff.1 h
      obtain ⟨rfl, -⟩ := Prod.mk.inj heq
      exact absurd (not_isCompound_of_scalarValue? hv) (by simp [Json.isCompound])
    | sequence p items =>
      cases depth with
      | zero => cases h
      | succ depth =>
        dsimp only at h
        split at h
        · cases h
        · obtain ⟨⟨values, last⟩, -, heq⟩ := Option.bind_eq_some_iff.1 h
          cases heq
    | mapping p pairs =>
      cases depth with
      | zero => cases h
      | succ depth =>
        dsimp only at h
        split at h
        · cases h
        · obtain ⟨⟨values, last⟩, hfold, heq⟩ := Option.bind_eq_some_iff.1 h
          obtain ⟨rfl, -⟩ : values = fields ∧ last = left' := by simpa [pure] using heq
          have hempty : Fields.Ascending [] := List.Pairwise.nil
          -- whatever the pairs are, each of them is put where it belongs
          refine foldlM_invariant (P := fun b : Fields × ℕ => Fields.Ascending b.1) ?_ hempty hfold
          rintro ⟨values, rest⟩ ⟨k, n⟩ b' hvalues hstep
          simp only [Option.bind_eq_bind, Option.bind_eq_some_iff, Option.pure_def] at hstep
          obtain ⟨⟨key, _⟩, -, ⟨v, _⟩, -, hb'⟩ := hstep
          obtain rfl := Option.some.inj hb'
          exact Fields.Ascending.insert hvalues key v

theorem ascending_of_value? {fields : Fields} (h : value? t = some (.object fields)) : fields.Ascending := by
  unfold value? at h
  simp only [Option.bind_eq_bind, Option.bind_eq_some_iff] at h
  obtain ⟨tokens, -, node, -, h⟩ := h
  cases node with
  | none => cases h
  | some root =>
    obtain ⟨⟨v, left⟩, hv, rfl⟩ := Option.map_eq_some_iff.1 h
    exact ascending_of_nodeValue? hv

end Yaml

namespace Document

/-- The fields of a header are in the order of their names. -/
theorem ascending_parseLenient (t : Text) : (parseLenient t).attributes.Ascending := by
  have hnil : Fields.Ascending [] := List.Pairwise.nil
  have hheader : ∀ {header fields}, attributes? header = some fields → fields.Ascending := by
    intro header fields h
    unfold attributes? at h
    split at h
    · exact Option.some.inj h ▸ hnil
    · split at h
      · next fields hvalue =>
        obtain rfl := Option.some.inj h
        exact Yaml.ascending_of_value? hvalue
      · exact Option.some.inj h ▸ hnil
      · cases h
  unfold parseLenient
  cases hparse : parse? t with
  | none => exact hnil
  | some d =>
    unfold parse? at hparse
    split at hparse
    · obtain ⟨fields, hfields, rfl⟩ := Option.map_eq_some_iff.1 hparse
      exact hheader hfields
    · exact Option.some.inj hparse ▸ hnil

end Document

end Pagewright
