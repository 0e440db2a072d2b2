import Mathlib.Data.List.Infix
import Mathlib.Data.List.TakeWhile
import Pagewright.Text.Basic

/-!
# Where a literal occurs

`Text.splitFirst?` and `Text.replaceFirst` look for the first occurrence of a literal, while the facts
about pages are about occurrence as such (`p <:+: t`). Three things live here:

* the seams: where an occurrence in a text put together from parts can lie;
* occurrence in a text that was escaped character by character;
* the first occurrence, and what `replaceFirst` does with it.

A literal whose first character does not come back in it (`x :: ys` with `x ∉ ys`) cannot overlap itself.
All marks that pages keep for other texts are of this kind.
-/

namespace Pagewright.Text

variable {x c : Char} {ys p a b r t out : Text}

/-! ## Statements about characters

They are decided along the text, and not by going over all characters there are. -/

section Decidable

variable (q : Char → Prop) [DecidablePred q]

instance (priority := high) decidableForallMem (t : Text) : Decidable (∀ c ∈ t, q c) :=
  List.decidableBAll q t

instance (priority := high) decidableExistsMem (t : Text) : Decidable (∃ c ∈ t, q c) :=
  List.decidableBEx q t

instance (priority := high) decidableForallMemOption (o : Option Char) : Decidable (∀ c ∈ o, q c) :=
  Option.decidableForallMem o

end Decidable

/-! ## Literals at the start -/

theorem after?_eq_some_iff : after? p t = some r ↔ t = p ++ r := by
  induction p generalizing t with
  | nil => simp [after?, eq_comm]
  | cons a p ih =>
    cases t with
    | nil => simp [after?]
    | cons c s =>
      by_cases h : a = c
      · simp [after?, h, ih]
      · simp [after?, h, Ne.symm h]

@[simp] theorem after?_append_self (p r : Text) : after? p (p ++ r) = some r :=
  after?_eq_some_iff.2 rfl

theorem consumed_append_right (t r : Text) : consumed (t ++ r) r = t := by
  rw [consumed, List.length_append, Nat.add_sub_cancel, List.take_left]

theorem consumed_cons_append (c : Char) (t r : Text) : consumed (c :: (t ++ r)) r = c :: t :=
  consumed_append_right (c :: t) r

theorem after?_eq_none_iff : after? p t = none ↔ ¬ p <+: t := by
  rw [Option.eq_none_iff_forall_ne_some]
  constructor
  · rintro h ⟨r, rfl⟩
    exact h r (after?_append_self p r)
  · intro h r hr
    exact h ⟨r, (after?_eq_some_iff.1 hr).symm⟩

theorem startsWith_iff : startsWith p t ↔ p <+: t := by
  rw [startsWith, Option.isSome_iff_ne_none, ne_eq, after?_eq_none_iff, not_not]

theorem contains_iff : contains p t ↔ p <:+: t := by
  induction t with
  | nil => rw [contains, List.isEmpty_iff, List.infix_nil]
  | cons c t ih => rw [contains, Bool.or_eq_true, startsWith_iff, ih, List.infix_cons_iff]

/-! ## Seams -/

/-- An occurrence across the border of two parts would have the first character of the second part behind
its own first one. -/
theorem infix_append_iff_of_head (h : ∀ d ∈ b.head?, d ∉ ys) :
    x :: ys <:+: a ++ b ↔ x :: ys <:+: a ∨ x :: ys <:+: b := by
  rw [List.infix_append_iff_ne_nil]
  constructor
  · rintro (ha | hb | ⟨l₁, l₂, hl₁, hl₂, heq, -, hpre⟩)
    · exact Or.inl ha
    · exact Or.inr hb
    · obtain ⟨d, l₂, rfl⟩ := List.exists_cons_of_ne_nil hl₂
      obtain ⟨s, rfl⟩ := hpre
      obtain ⟨_, l₁, rfl⟩ := List.exists_cons_of_ne_nil hl₁
      simp only [List.cons_append, List.cons.injEq] at heq
      exact absurd (heq.2 ▸ by simp) (h d (by simp))
  · rintro (ha | hb)
    · exact Or.inl ha
    · exact Or.inr (Or.inl hb)

/-- An occurrence across the border of two parts would have the last character of the first part before
its own last one. -/
theorem infix_append_iff_of_last (h : ∀ d ∈ a.getLast?, d ∉ p.dropLast) :
    p <:+: a ++ b ↔ p <:+: a ∨ p <:+: b := by
  rw [List.infix_append_iff_ne_nil]
  constructor
  · rintro (ha | hb | ⟨l₁, l₂, hl₁, hl₂, rfl, ⟨s, rfl⟩, -⟩)
    · exact Or.inl ha
    · exact Or.inr hb
    · have hlast : l₁.getLast hl₁ ∈ (s ++ l₁).getLast? := by
        rw [List.getLast?_append_of_ne_nil s hl₁, List.getLast?_eq_some_getLast hl₁]
        rfl
      have hdrop : (l₁ ++ l₂).dropLast = l₁ ++ l₂.dropLast := List.dropLast_append_of_ne_nil hl₂
      exact absurd (hdrop ▸ List.mem_append_left _ (List.getLast_mem hl₁)) (h _ hlast)
  · rintro (ha | hb)
    · exact Or.inl ha
    · exact Or.inr (Or.inl hb)

/-- An occurrence does not begin in a part without its first character. -/
theorem infix_append_iff_of_head_notMem (h : x ∉ a) : x :: ys <:+: a ++ b ↔ x :: ys <:+: b := by
  induction a with
  | nil => rfl
  | cons d a ih =>
    simp only [List.mem_cons, not_or] at h
    rw [List.cons_append, List.infix_cons_iff, ih h.2, List.cons_prefix_cons]
    simp [h.1]

/-- An occurrence does not reach over a character that it does not have. -/
theorem infix_append_cons_iff (h : c ∉ x :: ys) :
    x :: ys <:+: a ++ c :: b ↔ x :: ys <:+: a ∨ x :: ys <:+: b := by
  simp only [List.mem_cons, not_or] at h
  have hb : x :: ys <:+: [c] ++ b ↔ x :: ys <:+: b :=
    infix_append_iff_of_head_notMem (by simpa using Ne.symm h.1)
  rw [infix_append_iff_of_head (by simpa using h.2)]
  exact or_congr_right hb

/-- A text with a character that the other one does not have does not occur there. -/
theorem not_infix_of_mem {m : Text} (hm : c ∈ m) (ht : c ∉ t) : ¬ m <:+: t :=
  fun h => ht (h.subset hm)

/-! ## Escaping character by character -/

private theorem prefix_of_prefix_flatMap {f : Char → Text} {m n : Text}
    (hf : ∀ c, f c = [c] ∨ ∃ z w, f c = z :: w ∧ z ∉ n) (hmn : ∀ c ∈ m, c ∈ n)
    (h : m <+: t.flatMap f) : m <+: t := by
  induction m generalizing t with
  | nil => exact List.nil_prefix
  | cons d m ih =>
    cases t with
    | nil => simp at h
    | cons c t =>
      rw [List.flatMap_cons] at h
      rcases hf c with hc | ⟨z, w, hc, hz⟩
      · rw [hc, List.singleton_append, List.cons_prefix_cons] at h
        exact List.cons_prefix_cons.2
          ⟨h.1, ih (fun e he => hmn e (List.mem_cons_of_mem _ he)) h.2⟩
      · rw [hc, List.cons_append, List.cons_prefix_cons] at h
        exact absurd (h.1 ▸ hmn d List.mem_cons_self) hz

/-- A literal whose characters are not escaped occurs in an escaped text just where it occurs in the text
itself: an escape begins with a character that the literal does not have, and the literal does not begin
inside of one. -/
theorem infix_flatMap_iff {f : Char → Text} (hm : ∀ c ∈ x :: ys, f c = [c])
    (hf : ∀ c, f c = [c] ∨ ∃ z w, f c = z :: w ∧ z ∉ x :: ys ∧ x ∉ w) :
    x :: ys <:+: t.flatMap f ↔ x :: ys <:+: t := by
  constructor
  · intro h
    induction t with
    | nil => simp at h
    | cons c t ih =>
      rw [List.flatMap_cons] at h
      rcases hf c with hc | ⟨z, w, hc, hz, hw⟩
      · rw [hc, List.singleton_append, List.infix_cons_iff] at h
        rcases h with h | h
        · have hpre : x :: ys <+: (c :: t).flatMap f := by rwa [List.flatMap_cons, hc]
          refine (prefix_of_prefix_flatMap (n := x :: ys) (fun d => ?_) (fun _ => id) hpre).isInfix
          exact (hf d).imp_right fun ⟨z, w, hd, hz, _⟩ => ⟨z, w, hd, hz⟩
        · exact List.infix_cons (ih h)
      · have hx : x ∉ z :: w := by
          simp only [List.mem_cons, not_or] at hz ⊢
          exact ⟨Ne.symm hz.1, hw⟩
        rw [hc, infix_append_iff_of_head_notMem hx] at h
        exact List.infix_cons (ih h)
  · intro h
    have hself : (x :: ys).flatMap f = x :: ys := by
      rw [List.flatMap_congr hm, List.flatMap_singleton']
    simpa only [hself] using h.flatMap f

/-! ## The first occurrence -/

theorem eq_append_of_splitFirst? (h : splitFirst? p t = some (b, r)) : t = b ++ p ++ r := by
  induction t generalizing b with
  | nil =>
    simp only [splitFirst?] at h
    split at h
    · next hp => simp_all
    · simp at h
  | cons c t ih =>
    simp only [splitFirst?] at h
    split at h
    · next rest hp =>
      simp only [Option.some.injEq, Prod.mk.injEq] at h
      obtain ⟨rfl, rfl⟩ := h
      exact after?_eq_some_iff.1 hp
    · obtain ⟨⟨b', r'⟩, hb, he⟩ := Option.map_eq_some_iff.1 h
      simp only [Prod.mk.injEq] at he
      obtain ⟨rfl, rfl⟩ := he
      rw [ih hb]
      rfl

theorem splitFirst?_eq_none_iff : splitFirst? p t = none ↔ ¬ p <:+: t := by
  induction t with
  | nil => simp [splitFirst?]
  | cons c t ih =>
    rw [List.infix_cons_iff, not_or, ← ih, ← after?_eq_none_iff, splitFirst?]
    split <;> simp_all

/-- No occurrence begins before the first one. -/
theorem not_infix_of_splitFirst? (h : splitFirst? (x :: ys) t = some (b, r)) :
    ¬ x :: ys <:+: b := by
  induction t generalizing b with
  | nil => simp [splitFirst?] at h
  | cons c t ih =>
    simp only [splitFirst?] at h
    split at h
    · simp only [Option.some.injEq, Prod.mk.injEq] at h
      simp [← h.1]
    · next hp =>
      obtain ⟨⟨b', r'⟩, hb, he⟩ := Option.map_eq_some_iff.1 h
      simp only [Prod.mk.injEq] at he
      obtain ⟨rfl, rfl⟩ := he
      rw [List.infix_cons_iff, not_or]
      refine ⟨fun hpre => after?_eq_none_iff.1 hp ?_, ih hb⟩
      rw [eq_append_of_splitFirst? hb, List.append_assoc, ← List.cons_append]
      exact hpre.trans (List.prefix_append _ _)

/-- Of two occurrences the one that begins later has the other one in front of it. -/
theorem prefix_of_append_eq {s r' : Text} (hx : x ∉ ys) (hs : s ≠ [])
    (h : x :: ys ++ r = s ++ (x :: ys ++ r')) : x :: ys <+: s := by
  obtain ⟨d, s, rfl⟩ := List.exists_cons_of_ne_nil hs
  simp only [List.cons_append, List.cons.injEq] at h
  obtain ⟨rfl, h⟩ := h
  rcases List.append_eq_append_iff.1 h with ⟨u, rfl, -⟩ | ⟨u, rfl, hu⟩
  · exact ⟨u, rfl⟩
  · cases u with
    | nil => simp
    | cons d u =>
      simp only [List.cons_append, List.cons.injEq] at hu
      simp [← hu.1] at hx

/-- An occurrence before which there is no other one is the first. -/
theorem splitFirst?_append (hx : x ∉ ys) (hb : ¬ x :: ys <:+: b) :
    splitFirst? (x :: ys) (b ++ x :: ys ++ r) = some (b, r) := by
  cases h : splitFirst? (x :: ys) (b ++ x :: ys ++ r) with
  | none => exact absurd (List.infix_append b (x :: ys) r) (splitFirst?_eq_none_iff.1 h)
  | some found =>
    obtain ⟨b', r'⟩ := found
    have hb' := not_infix_of_splitFirst? h
    have heq := eq_append_of_splitFirst? h
    rw [List.append_assoc, List.append_assoc] at heq
    rcases List.append_eq_append_iff.1 heq with ⟨s, rfl, hs⟩ | ⟨s, rfl, hs⟩
    · by_cases hn : s = []
      · simp_all
      · exact absurd ((prefix_of_append_eq hx hn hs).isInfix.trans
          List.infix_append_right) hb'
    · by_cases hn : s = []
      · simp_all
      · exact absurd ((prefix_of_append_eq hx hn hs).isInfix.trans
          List.infix_append_right) hb

theorem splitFirst?_eq_some_iff (hx : x ∉ ys) :
    splitFirst? (x :: ys) t = some (b, r) ↔ t = b ++ x :: ys ++ r ∧ ¬ x :: ys <:+: b := by
  constructor
  · exact fun h => ⟨eq_append_of_splitFirst? h, not_infix_of_splitFirst? h⟩
  · rintro ⟨rfl, hb⟩
    exact splitFirst?_append hx hb

/-! ## Replacing the first occurrence -/

theorem replaceFirst_of_not_infix (h : ¬ p <:+: t) : replaceFirst p out t = t := by
  rw [replaceFirst, splitFirst?_eq_none_iff.2 h]

theorem replaceFirst_append (hx : x ∉ ys) (hb : ¬ x :: ys <:+: b) :
    replaceFirst (x :: ys) out (b ++ x :: ys ++ r) = b ++ out ++ r := by
  rw [replaceFirst, splitFirst?_append hx hb]

/-- A literal is either not there and nothing is replaced, or its first occurrence is. -/
theorem replaceFirst_cases (hx : x ∉ ys) (t out : Text) :
    (¬ x :: ys <:+: t ∧ replaceFirst (x :: ys) out t = t) ∨
      ∃ b r, t = b ++ x :: ys ++ r ∧ ¬ x :: ys <:+: b ∧
        replaceFirst (x :: ys) out t = b ++ out ++ r := by
  by_cases h : x :: ys <:+: t
  · obtain ⟨⟨b, r⟩, hs⟩ := Option.ne_none_iff_exists'.1 (mt splitFirst?_eq_none_iff.1 (not_not.2 h))
    obtain ⟨rfl, hb⟩ := (splitFirst?_eq_some_iff hx).1 hs
    exact Or.inr ⟨b, r, rfl, hb, replaceFirst_append hx hb⟩
  · exact Or.inl ⟨h, replaceFirst_of_not_infix h⟩

/-! ## Separators -/

section Separators

variable {s : Text}

theorem splitOnce?_append {sep : Char} {before : Text} (h : sep ∉ before) (r : Text) :
    splitOnce? sep (before ++ sep :: r) = some (before, r) := by
  induction before with
  | nil => simp [splitOnce?]
  | cons c before ih =>
    simp only [List.mem_cons, not_or] at h
    simp [splitOnce?, Ne.symm h.1, ih h.2]

theorem splitOnce?_of_notMem {sep : Char} (h : sep ∉ t) : splitOnce? sep t = none := by
  induction t with
  | nil => rfl
  | cons c t ih =>
    simp only [List.mem_cons, not_or] at h
    simp [splitOnce?, Ne.symm h.1, ih h.2]

/-- Characters of a kind are taken up to the first one of another kind. -/
theorem takeWhile_append_cons {p : Char → Bool} {d : Char} (hr : ∀ c ∈ r, p c) (hd : p d = false) (s : Text) :
    (r ++ d :: s).takeWhile p = r := by
  rw [List.takeWhile_append_of_pos hr, List.takeWhile_cons_of_neg (by simp [hd]), List.append_nil]

theorem dropWhile_append_cons {p : Char → Bool} {d : Char} (hr : ∀ c ∈ r, p c) (hd : p d = false) (s : Text) :
    (r ++ d :: s).dropWhile p = d :: s := by
  rw [List.dropWhile_append_of_pos hr, List.dropWhile_cons_of_neg (by simp [hd])]

theorem takeWhile_append_of_mem {p : Char → Bool} {c : Char} (hc : c ∈ r) (hp : p c = false) :
    (r ++ s).takeWhile p = r.takeWhile p := by
  have hne : (r.takeWhile p).length ≠ r.length := fun h => by
    have hr : r.takeWhile p = r := (List.takeWhile_prefix p).eq_of_length h
    have := List.mem_takeWhile_imp (hr.symm ▸ hc)
    simp [hp] at this
  rw [List.takeWhile_append, if_neg hne]

theorem mem_dropWhile_of_mem {p : Char → Bool} {c : Char} (hc : c ∈ r) (hp : p c = false) :
    c ∈ r.dropWhile p := by
  rw [← List.takeWhile_append_dropWhile (p := p) (l := r), List.mem_append] at hc
  refine hc.resolve_left fun h => ?_
  have := List.mem_takeWhile_imp h
  simp [hp] at this

theorem of_mem_head?_dropWhile {α : Type} {p : α → Bool} {a : α} {l : List α} (h : a ∈ (l.dropWhile p).head?) :
    p a = false := by
  have hhead := List.head?_dropWhile_not p l
  rwa [Option.mem_def.1 h] at hhead

theorem dropWhile_append_of_mem {p : Char → Bool} {c : Char} (hc : c ∈ r) (hp : p c = false) :
    (r ++ s).dropWhile p = r.dropWhile p ++ s := by
  have hne : r.dropWhile p ≠ [] := List.ne_nil_of_mem (mem_dropWhile_of_mem hc hp)
  rw [List.dropWhile_append, if_neg (by simpa using hne)]

/-- A literal that lacks a character is read in front of it, whatever follows. -/
theorem after?_append_of_mem (hp : c ∉ p) (hr : c ∈ r) : after? p (r ++ s) = (after? p r).map (· ++ s) := by
  induction p generalizing r with
  | nil => rfl
  | cons a p ih =>
    rw [List.mem_cons, not_or] at hp
    cases r with
    | nil => simp at hr
    | cons d r =>
      rw [List.cons_append, after?, after?]
      split
      · next had =>
        have hd : c ≠ d := had ▸ hp.1
        exact ih hp.2 ((List.mem_cons.1 hr).resolve_left hd)
      · rfl

/-- A literal does not reach as far as a character that it lacks. -/
theorem after?_append_cons (hp : c ∉ p) : after? p (r ++ c :: s) = (after? p r).map (· ++ c :: s) := by
  induction p generalizing r with
  | nil => rfl
  | cons a p ih =>
    rw [List.mem_cons, not_or] at hp
    cases r with
    | nil => exact if_neg (Ne.symm hp.1)
    | cons d r =>
      rw [List.cons_append, after?, after?]
      split
      · exact ih hp.2
      · rfl

theorem splitOnce?_append_of_mem {sep : Char} (h : sep ∈ r) :
    splitOnce? sep (r ++ s) = (splitOnce? sep r).map (Prod.map id (· ++ s)) := by
  induction r with
  | nil => simp at h
  | cons c r ih =>
    by_cases hc : c = sep
    · simp [splitOnce?, hc]
    · have hr : sep ∈ r := (List.mem_cons.1 h).resolve_left (Ne.symm hc)
      simp only [List.cons_append, splitOnce?, hc, ↓reduceIte, ih hr, Option.map_map]
      rfl

theorem notMem_of_splitOnce? {sep : Char} {before rest : Text}
    (h : splitOnce? sep t = some (before, rest)) : sep ∉ before := by
  induction t generalizing before with
  | nil => simp [splitOnce?] at h
  | cons c t ih =>
    simp only [splitOnce?] at h
    split at h
    · simp only [Option.some.injEq, Prod.mk.injEq] at h
      simp [← h.1]
    · next hc =>
      obtain ⟨⟨b, s⟩, hb, hs⟩ := Option.map_eq_some_iff.1 h
      simp only [Prod.mk.injEq] at hs
      obtain ⟨rfl, rfl⟩ := hs
      simp [ih hb, Ne.symm hc]

end Separators

end Pagewright.Text
