import Mathlib.Data.List.Infix
import Pagewright.Proofs.Text.Occurrence

/-!
# What a substitution leaves alone

`Text.substitute` and `Text.substituteM` read a text from left to right and ask a `step` at each place
whether there is something to replace. A text is *free* of a step (`Text.Free`) when there is nothing at
any of its places; then it stays as it is. A text that is put together from parts can be treated part by
part, as long as what begins in the first part also ends there.
-/

namespace Pagewright.Text

variable {ε α : Type} {c : Char} {a b t r rest out : Text}

/-- A text where nothing is recognised at any place. -/
def Free (step : Text → Option α) (t : Text) : Prop := ∀ s, s <:+ t → s ≠ [] → step s = none

theorem Free.nil (step : Text → Option α) : Free step [] := fun _ hs hn =>
  absurd (List.suffix_nil.1 hs) hn

theorem free_cons {step : Text → Option α} :
    Free step (c :: t) ↔ step (c :: t) = none ∧ Free step t := by
  constructor
  · exact fun h => ⟨h _ List.suffix_rfl (by simp), fun s hs => h s (hs.trans (List.suffix_cons c t))⟩
  · rintro ⟨hc, ht⟩ s hs hn
    rcases List.suffix_cons_iff.1 hs with rfl | hs
    · exact hc
    · exact ht s hs hn

instance decidableFree (step : Text → Option α) : (t : Text) → Decidable (Free step t)
  | [] => .isTrue (.nil step)
  | c :: t =>
    have : Decidable (Free step t) := decidableFree step t
    decidable_of_iff ((step (c :: t)).isNone = true ∧ Free step t)
      (by rw [free_cons, Option.isNone_iff_eq_none])

/-! ## One step -/

theorem substitute_cons_none {step : Text → Option (Text × Text)} (h : step (c :: r) = none) :
    substitute step (c :: r) = c :: substitute step r := by
  rw [substitute, h]

theorem substitute_cons_some {step : Text → Option (Text × Text)}
    (h : step (c :: r) = some (out, rest)) (hr : rest.length ≤ r.length) :
    substitute step (c :: r) = out ++ substitute step rest := by
  rw [substitute, h]
  exact if_pos hr

theorem substituteM_cons_none {step : Text → Option (Except ε Text × Text)} (h : step (c :: r) = none) :
    substituteM step (c :: r) = (substituteM step r).map (c :: ·) := by
  rw [substituteM, h]

theorem substituteM_cons_some {step : Text → Option (Except ε Text × Text)} {found : Except ε Text}
    (h : step (c :: r) = some (found, rest)) :
    substituteM step (c :: r) =
      if rest.length ≤ r.length then do return (← found) ++ (← substituteM step rest)
      else (substituteM step r).map (c :: ·) := by
  rw [substituteM, h]

/-! ## Free texts -/

theorem substitute_append_left {step : Text → Option (Text × Text)}
    (h : ∀ s, s <:+ a → s ≠ [] → step (s ++ b) = none) :
    substitute step (a ++ b) = a ++ substitute step b := by
  induction a with
  | nil => rfl
  | cons c a ih =>
    have hc : step (c :: (a ++ b)) = none := h (c :: a) List.suffix_rfl (by simp)
    rw [List.cons_append, substitute_cons_none hc,
      ih fun s hs => h s (hs.trans (List.suffix_cons c a))]
    rfl

theorem substitute_of_free {step : Text → Option (Text × Text)} (h : Free step t) :
    substitute step t = t := by
  have := substitute_append_left (b := []) (by simpa [Free] using h)
  simpa [substitute] using this

/-- Where everything that is recognised begins with one character, a part without it is left alone. -/
theorem substitute_append_of_notMem {step : Text → Option (Text × Text)} {first : Char}
    (hfirst : ∀ d s, d ≠ first → step (d :: s) = none) (ha : first ∉ a) (b : Text) :
    substitute step (a ++ b) = a ++ substitute step b := by
  refine substitute_append_left fun s hs hn => ?_
  obtain ⟨d, s, rfl⟩ := List.exists_cons_of_ne_nil hn
  have hd : d ≠ first := by
    rintro rfl
    exact ha (hs.subset List.mem_cons_self)
  exact hfirst d (s ++ b) hd

theorem substitute_of_notMem {step : Text → Option (Text × Text)} {first : Char}
    (hfirst : ∀ d s, d ≠ first → step (d :: s) = none) (ha : first ∉ a) : substitute step a = a := by
  have h := substitute_append_of_notMem hfirst ha []
  rwa [List.append_nil, substitute, List.append_nil] at h

/-- Either something is recognised at the character and as far as the next part, or the character is passed over, and
then everything up to the next part is. -/
theorem substitute_first_append {step : Text → Option (Text × Text)} {first : Char}
    (hfirst : ∀ d s, d ≠ first → step (d :: s) = none) (ha : first ∉ a)
    (h : step (first :: (a ++ b)) = some (out, b) ∨ step (first :: (a ++ b)) = none ∧ out = first :: a) :
    substitute step (first :: (a ++ b)) = out ++ substitute step b := by
  rcases h with h | ⟨h, rfl⟩
  · exact substitute_cons_some h (by simp)
  · rw [substitute_cons_none h, substitute_append_of_notMem hfirst ha]
    rfl

theorem substituteM_of_free {step : Text → Option (Except ε Text × Text)} (h : Free step t) :
    substituteM step t = .ok t := by
  induction t with
  | nil => rw [substituteM]
  | cons c t ih =>
    rw [free_cons] at h
    rw [substituteM, h.1, ih h.2]
    rfl

/-- What was read does not depend on what follows. -/
theorem consumed_append_append (h : rest <:+ t) (b : Text) : consumed (t ++ b) (rest ++ b) = consumed t rest := by
  have hlen := h.length_le
  rw [consumed, consumed, List.length_append, List.length_append, Nat.add_sub_add_right,
    List.take_append_of_le_length (by omega)]

/-! ## Two ways to replace -/

/-- Two parts are treated apart when what is recognised in the first one also ends there. -/
theorem substitute_append {step : Text → Option (Text × Text)}
    (h : ∀ s, s <:+ a → s ≠ [] → step (s ++ b) = (step s).map (Prod.map id (· ++ b)))
    (hlen : ∀ s out rest, s <:+ a → step s = some (out, rest) → rest <:+ s) :
    substitute step (a ++ b) = substitute step a ++ substitute step b := by
  fun_induction substitute step a with
  | case1 => rfl
  | case2 c r out rest hs hr ih =>
    have hstep : step (c :: (r ++ b)) = some (out, rest ++ b) := by
      have := h (c :: r) List.suffix_rfl (by simp)
      simpa [hs] using this
    have hrest : rest <:+ c :: r := hlen _ _ _ List.suffix_rfl hs
    rw [List.cons_append, substitute_cons_some hstep (by simpa using hr), List.append_assoc,
      ih (fun s hs => h s (hs.trans hrest)) (fun s _ _ hs => hlen s _ _ (hs.trans hrest))]
  | case3 c r out rest hs hr ih =>
    have hstep : step (c :: (r ++ b)) = some (out, rest ++ b) := by
      have := h (c :: r) List.suffix_rfl (by simp)
      simpa [hs] using this
    have hsuf := List.suffix_cons c r
    rw [List.cons_append, substitute, hstep]
    simp only [List.length_append, Nat.add_le_add_iff_right, hr, ↓reduceIte, List.cons_append]
    rw [ih (fun s hs => h s (hs.trans hsuf)) (fun s _ _ hs => hlen s _ _ (hs.trans hsuf))]
  | case4 c r hs ih =>
    have hstep : step (c :: (r ++ b)) = none := by
      have := h (c :: r) List.suffix_rfl (by simp)
      simpa [hs] using this
    have hsuf := List.suffix_cons c r
    rw [List.cons_append, substitute_cons_none hstep,
      ih (fun s hs => h s (hs.trans hsuf)) (fun s _ _ hs => hlen s _ _ (hs.trans hsuf))]
    rfl

/-- A single character is replaced wherever it stands. -/
theorem replaceAll_singleton (c : Char) (out t : Text) :
    replaceAll [c] out t = t.flatMap fun d => if d = c then out else [d] := by
  unfold replaceAll
  induction t with
  | nil => rw [substitute]; rfl
  | cons d t ih =>
    by_cases h : d = c
    · have hstep : ((after? [c] (d :: t)).map fun rest => (out, rest)) = some (out, t) := by
        simp [after?, h]
      rw [substitute_cons_some hstep le_rfl, ih]
      simp [h]
    · rw [substitute_cons_none (by simp [after?, Ne.symm h]), ih]
      simp [h]

theorem replaceAll_of_notMem {p : Text} (hc : c ∈ p) (ht : c ∉ t) : replaceAll p out t = t := by
  refine substitute_of_free fun s hs _ => ?_
  rw [Option.map_eq_none_iff, after?_eq_none_iff]
  intro hp
  exact ht (hs.subset (hp.subset hc))

/-! ## Texts that are not free -/

/-- Where every replacement fails, only a free text gets through. -/
theorem free_of_substituteM_eq_ok {step : Text → Option (Except ε Text × Text)}
    (hfail : ∀ s out rest, step s = some (out, rest) → ∃ err, out = .error err)
    (hlen : ∀ s out rest, step s = some (out, rest) → rest.length < s.length)
    (h : substituteM step t = .ok out) : Free step t := by
  induction t generalizing out with
  | nil => exact .nil step
  | cons c t ih =>
    rw [substituteM] at h
    split at h
    · next found rest hs =>
      obtain ⟨err, rfl⟩ := hfail _ _ _ hs
      have hr : rest.length ≤ t.length := by simpa [Nat.lt_succ_iff] using hlen _ _ _ hs
      simp [hr, bind, Except.bind] at h
    · next hs =>
      cases ht : substituteM step t with
      | error err => simp [ht, Except.map] at h
      | ok tail => exact free_cons.2 ⟨hs, ih ht⟩

/-- Where every replacement is shorter than what it replaces, only a free text stays as long as it is. -/
theorem length_substitute_le {step : Text → Option (Text × Text)}
    (hshort : ∀ s out rest, step s = some (out, rest) → out.length + rest.length < s.length)
    (t : Text) : (substitute step t).length ≤ t.length := by
  fun_induction substitute step t with
  | case1 => exact le_rfl
  | case2 c r out rest hs _ ih =>
    have := hshort _ _ _ hs
    simp only [List.length_append, List.length_cons] at this ⊢
    omega
  | case3 c r out rest hs hr ih =>
    have := hshort _ _ _ hs
    simp only [List.length_cons] at this
    omega
  | case4 c r _ ih => simpa using ih

theorem free_of_substitute_eq_self {step : Text → Option (Text × Text)}
    (hshort : ∀ s out rest, step s = some (out, rest) → out.length + rest.length < s.length)
    (h : substitute step t = t) : Free step t := by
  induction t with
  | nil => exact .nil step
  | cons c t ih =>
    cases hs : step (c :: t) with
    | none =>
      rw [substitute_cons_none hs, List.cons.injEq] at h
      exact free_cons.2 ⟨hs, ih h.2⟩
    | some found =>
      -- the whole would be shorter
      obtain ⟨out, rest⟩ := found
      have hlt := hshort _ _ _ hs
      have hr : rest.length ≤ t.length := by
        rw [List.length_cons] at hlt
        omega
      have hrest := length_substitute_le hshort rest
      have hlen := congrArg List.length h
      rw [substitute_cons_some hs hr, List.length_append] at hlen
      omega

/-! ## Counting -/

/-- A substitution that does not add a character anywhere does not add any in the whole. -/
theorem count_substitute_le {step : Text → Option (Text × Text)} (c : Char)
    (h : ∀ s out rest, step s = some (out, rest) → out.count c + rest.count c ≤ s.count c)
    (t : Text) : (substitute step t).count c ≤ t.count c := by
  fun_induction substitute step t with
  | case1 => simp
  | case2 d r out rest hs _ ih =>
    have := h _ _ _ hs
    rw [List.count_append]
    omega
  | case3 d r _ _ _ _ ih => simpa [List.count_cons] using ih
  | case4 d r _ ih => simpa [List.count_cons] using ih

theorem count_replaceAll_le {p : Text} (h : out.count c ≤ p.count c) (t : Text) :
    (replaceAll p out t).count c ≤ t.count c := by
  refine count_substitute_le c (fun s o r hs => ?_) t
  obtain ⟨r', hr, heq⟩ := Option.map_eq_some_iff.1 hs
  obtain ⟨rfl, rfl⟩ := Prod.mk.inj heq
  rw [after?_eq_some_iff.1 hr, List.count_append]
  exact Nat.add_le_add_right h _

end Pagewright.Text
