import Pagewright.Proofs.Text.Occurrence

/-!
# Texts that differ stay different

Where one occurrence of a literal is replaced in each of two texts, the texts cannot become equal if they
first differ at a place that no occurrence covers, and if the literal and what it is replaced by differ
too.
-/

namespace Pagewright.Text

variable {x y d d' : Char} {ys p out a b r r' s t t' u v : Text}

/-- The second text is the first one, or that with one occurrence of the literal replaced. -/
def Replaced (p out t u : Text) : Prop := u = t ∨ ∃ a b, t = a ++ (p ++ b) ∧ u = a ++ (out ++ b)

theorem replaced_replaceFirst (hx : x ∉ ys) (t out : Text) :
    Replaced (x :: ys) out t (replaceFirst (x :: ys) out t) := by
  rcases replaceFirst_cases hx t out with ⟨-, h⟩ | ⟨a, b, ht, -, h⟩
  · exact Or.inl h
  · exact Or.inr ⟨a, b, by simpa using ht, by simpa using h⟩

/-- A literal that replaces itself changes nothing. -/
theorem Replaced.eq_self (h : Replaced p p t u) : u = t := by
  rcases h with h | ⟨a, b, rfl, rfl⟩
  · exact h
  · rfl

/-- An occurrence ends before a character that it does not cover, or begins behind it. -/
private theorem append_eq_cases (hd : d ∉ ys) (hstart : ¬ y :: ys <+: d :: r)
    (h : s ++ d :: r = a ++ (y :: ys ++ b)) :
    (∃ w, s = a ++ (y :: ys ++ w)) ∨ ∃ w, a = s ++ d :: w := by
  rcases List.append_eq_append_iff.1 h with ⟨w, rfl, hw⟩ | ⟨w, rfl, hw⟩
  · cases w with
    | nil => exact absurd ⟨b, hw.symm⟩ hstart
    | cons c w =>
      rw [List.cons_append, List.cons.injEq] at hw
      exact Or.inr ⟨w, by rw [hw.1]⟩
  · rcases List.append_eq_append_iff.1 hw with ⟨v, rfl, -⟩ | ⟨v, hv, hv'⟩
    · exact Or.inl ⟨v, rfl⟩
    · cases v with
      | nil => exact Or.inl ⟨[], by simpa using hv.symm⟩
      | cons c v =>
        rw [List.cons_append, List.cons.injEq] at hv'
        obtain ⟨rfl, -⟩ := hv'
        cases w with
        | nil =>
          exact absurd ⟨b, by simpa using hw⟩ hstart
        | cons c w =>
          rw [List.cons_append, List.cons.injEq] at hv
          exact absurd (hv.2 ▸ by simp) hd

/-- Of two occurrences at which the same was put in, neither is in front of the other. -/
private theorem eq_nil_of_append_eq {k w w' z z' : Text} (hy : y ∉ ys)
    (hout : ∀ b b', out ++ b ≠ y :: ys ++ b') (h : y :: ys ++ w = k ++ (y :: ys ++ w'))
    (h' : out ++ z = k ++ (out ++ z')) : k = [] := by
  by_contra hn
  obtain ⟨l, rfl⟩ := prefix_of_append_eq hy hn h
  rw [List.append_assoc] at h'
  exact hout _ _ h'

/-- Two texts that first differ at `d` and `d'`. -/
theorem ne_of_replaced (hy : y ∉ ys) (hout : ∀ b b', out ++ b ≠ y :: ys ++ b') (hdd : d ≠ d')
    (hd : d ∉ ys) (hd' : d' ∉ ys) (hstart : ¬ y :: ys <+: d :: r) (hstart' : ¬ y :: ys <+: d' :: r')
    (hu : Replaced (y :: ys) out (s ++ d :: r) u) (hv : Replaced (y :: ys) out (s ++ d' :: r') v) :
    u ≠ v := by
  -- either a replacement lies in the common part, or it leaves the place of the difference alone
  have hcases : ∀ {d : Char} {r u : Text}, d ∉ ys → ¬ y :: ys <+: d :: r →
      Replaced (y :: ys) out (s ++ d :: r) u →
        (∃ a w, s = a ++ (y :: ys ++ w) ∧ u = a ++ (out ++ (w ++ d :: r))) ∨ ∃ w, u = s ++ d :: w := by
    intro d r u hd hstart hu
    rcases hu with rfl | ⟨a, b, ht, rfl⟩
    · exact Or.inr ⟨r, rfl⟩
    · rcases append_eq_cases hd hstart ht with ⟨w, rfl⟩ | ⟨w, rfl⟩
      · refine Or.inl ⟨a, w, rfl, ?_⟩
        simp only [List.append_assoc, List.append_cancel_left_eq] at ht
        rw [ht]
      · exact Or.inr ⟨w ++ (out ++ b), by simp⟩
  rintro rfl
  rcases hcases hd hstart hu with ⟨a, w, hs, hu⟩ | ⟨w, hu⟩ <;>
    rcases hcases hd' hstart' hv with ⟨a', w', hs', hv⟩ | ⟨w', hv⟩
  · -- two occurrences in the common part are at the same place, and the difference is behind them
    have heq := hs.symm.trans hs'
    have hput := hu.symm.trans hv
    rcases List.append_eq_append_iff.1 heq with ⟨k, rfl, hk⟩ | ⟨k, rfl, hk⟩
    · rw [List.append_assoc, List.append_cancel_left_eq] at hput
      obtain rfl := eq_nil_of_append_eq hy hout hk hput
      have hww : w = w' := by simpa using hk
      simp [hww, hdd] at hput
    · rw [List.append_assoc, List.append_cancel_left_eq] at hput
      obtain rfl := eq_nil_of_append_eq hy hout hk hput.symm
      have hww : w' = w := by simpa using hk
      simp [hww, hdd] at hput
  · rw [hu, hs, List.append_assoc, List.append_cancel_left_eq, List.append_assoc] at hv
    exact hout _ _ hv
  · rw [hu, hs', List.append_assoc, List.append_cancel_left_eq, List.append_assoc] at hv
    exact hout _ _ hv.symm
  · rw [hu, List.append_cancel_left_eq, List.cons.injEq] at hv
    exact hdd hv.1

end Pagewright.Text
