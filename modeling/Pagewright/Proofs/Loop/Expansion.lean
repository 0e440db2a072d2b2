import Mathlib.Order.WellFounded
import Pagewright.Site.Loop

/-!
# When the expansion of loops ends

`Site.expandLoops` replaces a loop by its rounds and expands those in turn. Nothing makes a round smaller
than the loop that it comes from, so whether any stack is deep enough is a matter of the data. Three things
live here:

* `inSequence`, results one after the other, and what a deeper stack adds to them (`Reaches`);
* `OpensInto`, the rounds that the expansion of a text comes to;
* an expansion has an answer on some stack exactly if there is no endless chain of rounds that open into
  each other (`grounded_iff`).
-/

namespace Pagewright.Site

/-! ## Results one after the other -/

section InSequence

variable {α ε : Type} {f g : α → Option (Except ε Text)} {a : α} {l rest : List α}

@[simp] theorem inSequence_nil : inSequence f [] = some (.ok []) := rfl

theorem inSequence_cons_of_none (h : f a = none) : inSequence f (a :: rest) = none := by
  rw [inSequence, h]

theorem inSequence_cons_of_error {err : ε} (h : f a = some (.error err)) :
    inSequence f (a :: rest) = some (.error err) := by
  rw [inSequence, h]

theorem inSequence_cons_of_ok {head : Text} (h : f a = some (.ok head)) :
    inSequence f (a :: rest) = (inSequence f rest).map (Except.map (head ++ ·)) := by
  rw [inSequence, h]

/-- Either the first part decides, or it succeeds and the others are answered. -/
theorem inSequence_cons_eq_some {r : Except ε Text} (h : inSequence f (a :: rest) = some r) :
    (∃ err, f a = some (.error err) ∧ r = .error err) ∨
      ∃ head tail, f a = some (.ok head) ∧ inSequence f rest = some tail ∧
        r = tail.map (head ++ ·) := by
  cases hf : f a with
  | none => simp [inSequence_cons_of_none hf] at h
  | some first =>
    cases first with
    | error err =>
      rw [inSequence_cons_of_error hf, Option.some.injEq] at h
      exact Or.inl ⟨err, rfl, h.symm⟩
    | ok head =>
      rw [inSequence_cons_of_ok hf] at h
      obtain ⟨tail, ht, hr⟩ := Option.map_eq_some_iff.1 h
      exact Or.inr ⟨head, tail, rfl, ht, hr.symm⟩

/-- The whole succeeds when every part does, and is what the parts are, put together. -/
theorem inSequence_eq_ok_iff {t : Text} :
    inSequence f l = some (.ok t) ↔
      ∃ outs : List Text, l.map f = outs.map (fun out => some (.ok out)) ∧ outs.flatten = t := by
  induction l generalizing t with
  | nil =>
    constructor
    · intro h
      exact ⟨[], rfl, by simpa using h⟩
    · rintro ⟨outs, houts, rfl⟩
      simp [List.map_eq_nil_iff.1 houts.symm]
  | cons a rest ih =>
    constructor
    · intro h
      rcases inSequence_cons_eq_some h with ⟨err, -, he⟩ | ⟨head, tail, hf, ht, hr⟩
      · simp at he
      · cases tail with
        | error err => simp [Except.map] at hr
        | ok tail =>
          obtain ⟨outs, houts, rfl⟩ := ih.1 ht
          refine ⟨head :: outs, by simp [hf, houts], ?_⟩
          simpa [Except.map, eq_comm] using hr
    · rintro ⟨outs, houts, rfl⟩
      cases outs with
      | nil => simp at houts
      | cons out outs =>
        simp only [List.map_cons, List.cons.injEq] at houts
        rw [inSequence_cons_of_ok houts.1, ih.2 ⟨outs, houts.2, rfl⟩]
        rfl

/-- Parts that succeed, put together, are what they are apart. -/
theorem inSequence_append_of_ok {l' : List α} {t t' : Text} (h : inSequence f l = some (.ok t))
    (h' : inSequence f l' = some (.ok t')) : inSequence f (l ++ l') = some (.ok (t ++ t')) := by
  obtain ⟨outs, houts, rfl⟩ := inSequence_eq_ok_iff.1 h
  obtain ⟨outs', houts', rfl⟩ := inSequence_eq_ok_iff.1 h'
  refine inSequence_eq_ok_iff.2 ⟨outs ++ outs', ?_, List.flatten_append⟩
  rw [List.map_append, List.map_append, houts, houts']

/-- Where parts that are answered keep their answer, so does the whole. -/
theorem inSequence_eq_some_of_le (hle : ∀ a r, f a = some r → g a = some r) {r : Except ε Text}
    (h : inSequence f l = some r) : inSequence g l = some r := by
  induction l generalizing r with
  | nil => exact h
  | cons a rest ih =>
    rcases inSequence_cons_eq_some h with ⟨err, hf, rfl⟩ | ⟨head, tail, hf, ht, rfl⟩
    · exact inSequence_cons_of_error (hle _ _ hf)
    · rw [inSequence_cons_of_ok (hle _ _ hf), ih ht]
      rfl

theorem exists_inSequence_eq_some (h : ∀ a ∈ l, ∃ r, f a = some r) : ∃ r, inSequence f l = some r := by
  induction l with
  | nil => exact ⟨_, rfl⟩
  | cons a rest ih =>
    obtain ⟨first, hf⟩ := h a List.mem_cons_self
    obtain ⟨tail, ht⟩ := ih fun b hb => h b (List.mem_cons_of_mem a hb)
    cases first with
    | error err => exact ⟨_, inSequence_cons_of_error hf⟩
    | ok head => exact ⟨_, by rw [inSequence_cons_of_ok hf, ht]; rfl⟩

/-! ### Deeper and deeper -/

/-- The parts that are looked at in a list, where a part succeeds at some depth. -/
inductive Reaches (F : ℕ → α → Option (Except ε Text)) : List α → α → Prop
  | here (a : α) (rest : List α) : Reaches F (a :: rest) a
  | later {n : ℕ} {a b : α} {out : Text} {rest : List α} :
    F n a = some (.ok out) → Reaches F rest b → Reaches F (a :: rest) b

variable {F : ℕ → α → Option (Except ε Text)} {b : α}

/-- What is looked at is answered when the whole is. -/
theorem Reaches.exists_eq_some (hagree : ∀ a r n r', f a = some r → F n a = some r' → r = r')
    (h : Reaches F l b) {r : Except ε Text} (hr : inSequence f l = some r) : ∃ r', f b = some r' := by
  induction h generalizing r with
  | here a rest =>
    rcases inSequence_cons_eq_some hr with ⟨err, hf, -⟩ | ⟨head, tail, hf, -, -⟩
    · exact ⟨_, hf⟩
    · exact ⟨_, hf⟩
  | later hF _ ih =>
    rcases inSequence_cons_eq_some hr with ⟨err, hf, -⟩ | ⟨head, tail, -, ht, -⟩
    · exact absurd (hagree _ _ _ _ hf hF) (by simp)
    · exact ih ht

/-- When everything that is looked at is answered at some depth, then the whole is. -/
theorem exists_inSequence_eq_some_of_reaches
    (hle : ∀ {n m : ℕ}, n ≤ m → ∀ a r, F n a = some r → F m a = some r)
    (h : ∀ b, Reaches F l b → ∃ n r, F n b = some r) : ∃ n r, inSequence (F n) l = some r := by
  induction l with
  | nil => exact ⟨0, _, rfl⟩
  | cons a rest ih =>
    obtain ⟨n, first, hf⟩ := h a (.here a rest)
    cases first with
    | error err => exact ⟨n, _, inSequence_cons_of_error hf⟩
    | ok head =>
      obtain ⟨m, tail, ht⟩ := ih fun b hb => h b (.later hf hb)
      -- the deeper of the two answers both the head and the rest
      have hhead := hle (Nat.le_max_left n m) _ _ hf
      have htail := inSequence_eq_some_of_le (hle (Nat.le_max_right n m)) ht
      exact ⟨max n m, _, by rw [inSequence_cons_of_ok hhead, htail]; rfl⟩

end InSequence

variable {σ : Type} [Storage σ] {site : Site σ} {frontmatter : Option Fields} {t t' : Text}

/-! ## Deeper stacks -/

theorem expandPiece_eq_some_of_le {f g : Text → Option (Except TemplateError Text)}
    (hle : ∀ t r, f t = some r → g t = some r) {p : Piece} {r : Except TemplateError Text}
    (h : site.expandPiece frontmatter f p = some r) : site.expandPiece frontmatter g p = some r := by
  cases p with
  | text t => exact h
  | element e =>
    simp only [expandPiece] at h ⊢
    cases hr : site.rounds? frontmatter e with
    | error err => simpa [hr] using h
    | ok texts? =>
      cases texts? with
      | none => simpa [hr] using h
      | some texts =>
        simp only [hr] at h ⊢
        exact inSequence_eq_some_of_le hle h

theorem expandLoopsWithin_zero (t : Text) :
    site.expandLoopsWithin frontmatter 0 t =
      inSequence (site.expandPiece frontmatter fun _ => none) (pieces Loop.tag t) := rfl

theorem expandLoopsWithin_succ (n : ℕ) (t : Text) :
    site.expandLoopsWithin frontmatter (n + 1) t =
      inSequence (site.expandPiece frontmatter (site.expandLoopsWithin frontmatter n))
        (pieces Loop.tag t) := rfl

private theorem expandLoopsWithin_succ_eq_some {n : ℕ} {r : Except TemplateError Text}
    (h : site.expandLoopsWithin frontmatter n t = some r) :
    site.expandLoopsWithin frontmatter (n + 1) t = some r := by
  induction n generalizing t r with
  | zero =>
    rw [expandLoopsWithin_zero] at h
    rw [expandLoopsWithin_succ]
    exact inSequence_eq_some_of_le
      (fun _ _ => expandPiece_eq_some_of_le fun _ _ hnone => absurd hnone (by simp)) h
  | succ n ih =>
    rw [expandLoopsWithin_succ] at h ⊢
    exact inSequence_eq_some_of_le (fun _ _ => expandPiece_eq_some_of_le fun _ _ => ih) h

/-- What is answered on a stack is answered on a deeper one, in the same way. -/
theorem expandLoopsWithin_of_le {n m : ℕ} (hnm : n ≤ m) {r : Except TemplateError Text}
    (h : site.expandLoopsWithin frontmatter n t = some r) :
    site.expandLoopsWithin frontmatter m t = some r := by
  induction hnm with
  | refl => exact h
  | step _ ih => exact expandLoopsWithin_succ_eq_some ih

/-- No two stacks answer differently. -/
theorem expandLoopsWithin_agree {n m : ℕ} {r r' : Except TemplateError Text}
    (h : site.expandLoopsWithin frontmatter n t = some r)
    (h' : site.expandLoopsWithin frontmatter m t = some r') : r = r' := by
  have hn := expandLoopsWithin_of_le (Nat.le_max_left n m) h
  have hm := expandLoopsWithin_of_le (Nat.le_max_right n m) h'
  exact Option.some.inj (hn.symm.trans hm)

/-! ## What an expansion comes to -/

variable (site frontmatter) in
/-- The expansion of the first text comes to the second one, a round of one of its loops: everything in
front of the loop and in front of the round succeeds on some stack. -/
def OpensInto (t t' : Text) : Prop :=
  ∃ e texts, Reaches (fun n => site.expandPiece frontmatter (site.expandLoopsWithin frontmatter n))
      (pieces Loop.tag t) (.element e) ∧
    site.rounds? frontmatter e = .ok (some texts) ∧
      Reaches (fun n => site.expandLoopsWithin frontmatter n) texts t'

variable (site frontmatter) in
/-- A text from which no chain of rounds goes on forever. -/
abbrev Grounded : Text → Prop := Acc fun t' t => OpensInto site frontmatter t t'

theorem expandPiece_element {f : Text → Option (Except TemplateError Text)} {e : Element}
    {texts : List Text} (h : site.rounds? frontmatter e = .ok (some texts)) :
    site.expandPiece frontmatter f (.element e) = inSequence f texts := by
  rw [expandPiece, h]

theorem exists_expandPiece_eq_some {f : Text → Option (Except TemplateError Text)} {e : Element}
    (h : ∀ texts, site.rounds? frontmatter e = .ok (some texts) → ∃ r, inSequence f texts = some r) :
    ∃ r, site.expandPiece frontmatter f (.element e) = some r := by
  cases hr : site.rounds? frontmatter e with
  | error err => exact ⟨.error err, by rw [expandPiece, hr]⟩
  | ok texts? =>
    cases texts? with
    | none => exact ⟨.ok e.text, by rw [expandPiece, hr]⟩
    | some texts =>
      rw [expandPiece_element hr]
      exact h texts hr

/-- The rounds that the expansion of a text comes to are answered when the text is. -/
theorem OpensInto.exists_eq_some {f : Text → Option (Except TemplateError Text)} {m : ℕ}
    (hle : ∀ t r, f t = some r → site.expandLoopsWithin frontmatter m t = some r)
    (h : OpensInto site frontmatter t t') {r : Except TemplateError Text}
    (hr : inSequence (site.expandPiece frontmatter f) (pieces Loop.tag t) = some r) :
    ∃ r', f t' = some r' := by
  obtain ⟨e, texts, hpieces, hrounds, htexts⟩ := h
  have hpiece : ∀ p r n r', site.expandPiece frontmatter f p = some r →
      site.expandPiece frontmatter (site.expandLoopsWithin frontmatter n) p = some r' → r = r' := by
    intro p r n r' hp hp'
    -- both answers are also the one of the deeper stack
    have hm := expandPiece_eq_some_of_le
      (fun u s hu => expandLoopsWithin_of_le (Nat.le_max_left m n) (hle u s hu)) hp
    have hn := expandPiece_eq_some_of_le
      (fun u s hu => expandLoopsWithin_of_le (Nat.le_max_right m n) hu) hp'
    exact Option.some.inj (hm.symm.trans hn)
  obtain ⟨r₁, hr₁⟩ := hpieces.exists_eq_some hpiece hr
  rw [expandPiece_element hrounds] at hr₁
  exact htexts.exists_eq_some (fun u s n s' hu hu' => expandLoopsWithin_agree (hle u s hu) hu') hr₁

/-- Where an expansion has an answer, no chain of rounds goes on forever: the rounds that it comes to are
answered with less stack. -/
theorem grounded_of_expandLoopsWithin_eq_some {n : ℕ} {r : Except TemplateError Text}
    (h : site.expandLoopsWithin frontmatter n t = some r) : Grounded site frontmatter t := by
  induction n generalizing t r with
  | zero =>
    refine Acc.intro t fun t' ho => ?_
    rw [expandLoopsWithin_zero] at h
    obtain ⟨r', hr'⟩ := ho.exists_eq_some (m := 0) (fun _ _ hnone => absurd hnone (by simp)) h
    simp at hr'
  | succ n ih =>
    refine Acc.intro t fun t' ho => ?_
    rw [expandLoopsWithin_succ] at h
    obtain ⟨r', hr'⟩ := ho.exists_eq_some (fun _ _ => id) h
    exact ih hr'

/-- If no chain of rounds goes on forever, some stack is deep enough. -/
theorem exists_expandLoopsWithin_eq_some_of_grounded (h : Grounded site frontmatter t) :
    ∃ n r, site.expandLoopsWithin frontmatter n t = some r := by
  induction h with
  | intro t _ ih =>
    -- the rounds that are reached are answered by induction, and with them the pieces
    have hle : ∀ {n m : ℕ}, n ≤ m → ∀ (t : Text) r,
        site.expandLoopsWithin frontmatter n t = some r →
          site.expandLoopsWithin frontmatter m t = some r := fun hnm t r =>
      expandLoopsWithin_of_le hnm
    have hpieces : ∀ p, Reaches (fun n => site.expandPiece frontmatter
        (site.expandLoopsWithin frontmatter n)) (pieces Loop.tag t) p →
          ∃ n r, site.expandPiece frontmatter (site.expandLoopsWithin frontmatter n) p = some r := by
      intro p hp
      cases p with
      | text u => exact ⟨0, _, rfl⟩
      | element e =>
        cases hr : site.rounds? frontmatter e with
        | error err => exact ⟨0, .error err, by rw [expandPiece, hr]⟩
        | ok texts? =>
          cases texts? with
          | none => exact ⟨0, .ok e.text, by rw [expandPiece, hr]⟩
          | some texts =>
            simp only [expandPiece_element hr]
            exact exists_inSequence_eq_some_of_reaches hle fun t' ht' => ih t' ⟨e, texts, hp, hr, ht'⟩
    have hlePiece : ∀ {n m : ℕ}, n ≤ m → ∀ (p : Piece) r,
        site.expandPiece frontmatter (site.expandLoopsWithin frontmatter n) p = some r →
          site.expandPiece frontmatter (site.expandLoopsWithin frontmatter m) p = some r :=
      fun hnm _ _ => expandPiece_eq_some_of_le (hle hnm)
    obtain ⟨n, r, hn⟩ := exists_inSequence_eq_some_of_reaches hlePiece hpieces
    exact ⟨n + 1, r, by rw [expandLoopsWithin_succ, hn]⟩

/-- Some stack is deep enough for a text if and only if no chain of rounds goes on forever. -/
theorem grounded_iff :
    Grounded site frontmatter t ↔ ∃ n r, site.expandLoopsWithin frontmatter n t = some r :=
  ⟨exists_expandLoopsWithin_eq_some_of_grounded,
    fun ⟨_, _, h⟩ => grounded_of_expandLoopsWithin_eq_some h⟩

end Pagewright.Site
