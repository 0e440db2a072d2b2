import Pagewright.Proofs.Template.Placeholder
import Pagewright.Proofs.Text.Replacement
import Pagewright.Site.Content

/-!
# The marks of a page

A page keeps places for the data, for the script and for the body of a document: its own marks. It is
written as texts and marks one after the other (`PagePart`), so that its own marks are told apart from the
same literals in what is filled in. Three things live here:

* `place`, which puts something at the first own mark, beside `front`, what stands before that mark;
* replacing the first occurrence of a mark is placing, as long as the mark does not occur in front of the
  page's own one (`replaceFirst_written`), and what was placed before adds only its own occurrences
  (`infix_written_place_iff`);
* filling in frontmatter leaves the marks alone, as long as no placeholder reaches over one
  (`replaceFrontmatter_written`).
-/

namespace Pagewright

open Site

/-- What a page keeps a place for. -/
inductive Mark
  | element | headEnd | content
deriving DecidableEq, Inhabited

/-- The literal of a mark. -/
def Mark.text : Mark → Text
  | element => elementMark
  | headEnd => Site.headEnd
  | content => contentMark

/-- A part of a page: a text, or one of the page's own marks. -/
inductive PagePart
  | text (t : Text)
  | mark (m : Mark)
deriving DecidableEq, Inhabited

namespace PagePart

/-- A part as it is written. -/
def source : PagePart → Text
  | text t => t
  | mark m => m.text

/-- The text of a page. -/
def written (ps : List PagePart) : Text := ps.flatMap source

/-- The page with a text in place of the first of its marks of a kind. -/
def place (m : Mark) (out : Text) : List PagePart → List PagePart
  | [] => []
  | text t :: ps => text t :: place m out ps
  | mark m' :: ps => if m' = m then text out :: ps else mark m' :: place m out ps

/-- What stands before the first mark of a kind; the whole page when it has none. -/
def front (m : Mark) : List PagePart → List PagePart
  | [] => []
  | text t :: ps => text t :: front m ps
  | mark m' :: ps => if m' = m then [] else mark m' :: front m ps

variable {m m' : Mark} {out t : Text} {ps : List PagePart}

@[simp] theorem written_nil : written [] = [] := rfl

@[simp] theorem written_cons (p : PagePart) (ps : List PagePart) :
    written (p :: ps) = p.source ++ written ps := List.flatMap_cons

@[simp] theorem written_append (ps qs : List PagePart) :
    written (ps ++ qs) = written ps ++ written qs := List.flatMap_append

/-! ## Marks -/

/-- The first character of a mark does not come back in any mark, and marks differ at once. -/
theorem text_eq_cons (m : Mark) : ∃ x ys, m.text = x :: ys ∧ ∀ m' : Mark, x ∉ m'.text.tail := by
  cases m
  · exact ⟨'\x7b', elementMark.tail, by decide, fun m' => by cases m' <;> decide⟩
  · exact ⟨'<', Site.headEnd.tail, by decide, fun m' => by cases m' <;> decide⟩
  · exact ⟨'\x7b', contentMark.tail, by decide, fun m' => by cases m' <;> decide⟩

/-- A page either has no mark of a kind, or it is what stands before the first one, the mark, and the
rest. -/
theorem front_cases (m : Mark) (ps : List PagePart) (out : Text) :
    (mark m ∉ ps ∧ front m ps = ps ∧ place m out ps = ps) ∨
      ∃ rest, ps = front m ps ++ mark m :: rest ∧ place m out ps = front m ps ++ text out :: rest := by
  induction ps with
  | nil => exact Or.inl ⟨by simp, rfl, rfl⟩
  | cons p ps ih =>
    cases p with
    | text t =>
      rcases ih with ⟨hn, hf, hp⟩ | ⟨rest, hps, hp⟩
      · exact Or.inl ⟨by simp [hn], by rw [front, hf], by rw [place, hp]⟩
      · exact Or.inr ⟨rest, by rw [front, List.cons_append, ← hps], by rw [place, front, hp]; rfl⟩
    | mark m' =>
      by_cases h : m' = m
      · subst h
        exact Or.inr ⟨ps, by simp [front], by simp [front, place]⟩
      · rcases ih with ⟨hn, hf, hp⟩ | ⟨rest, hps, hp⟩
        · exact Or.inl ⟨by simp [hn, Ne.symm h], by simp [front, h, hf], by simp [place, h, hp]⟩
        · refine Or.inr ⟨rest, ?_, by simp [place, front, h, hp]⟩
          rw [front, if_neg h, List.cons_append, ← hps]

theorem front_place_of_ne (h : m ≠ m') (out : Text) (ps : List PagePart) :
    front m' (place m out ps) = place m out (front m' ps) := by
  induction ps with
  | nil => rfl
  | cons p ps ih =>
    cases p with
    | text t => rw [place, front, front, place, ih]
    | mark k =>
      by_cases hk : k = m
      · subst hk
        simp only [place, front, ↓reduceIte, if_neg h]
      · by_cases hk' : k = m'
        · subst hk'
          simp [place, front, hk]
        · simp [place, front, hk, hk', ih]

theorem mark_mem_place_iff (h : m ≠ m') (out : Text) (ps : List PagePart) :
    mark m' ∈ place m out ps ↔ mark m' ∈ ps := by
  rcases front_cases m ps out with ⟨-, -, hp⟩ | ⟨rest, hps, hp⟩
  · rw [hp]
  · rw [hp]
    conv => rhs; rw [hps]
    simp [Ne.symm h]

/-! ## Placing -/

/-- No occurrence of a mark is in front of the page's own one. -/
def OwnFirst (m : Mark) (ps : List PagePart) : Prop := ¬ m.text <:+: written (front m ps)

instance (m : Mark) (ps : List PagePart) : Decidable (OwnFirst m ps) :=
  inferInstanceAs (Decidable (¬ m.text <:+: written (front m ps)))

/-- Replacing the first occurrence of a mark puts the text at the page's own one, if none is in front of
it. -/
theorem replaceFirst_written (h : OwnFirst m ps) :
    Text.replaceFirst m.text out (written ps) = written (place m out ps) := by
  obtain ⟨x, ys, hm, hx⟩ := text_eq_cons m
  have hx : x ∉ ys := by simpa [hm] using hx m
  rcases front_cases m ps out with ⟨-, hf, hp⟩ | ⟨rest, hps, hp⟩
  · rw [hp]
    rw [OwnFirst, hf] at h
    exact Text.replaceFirst_of_not_infix h
  · rw [hp]
    conv => lhs; rw [hps]
    rw [OwnFirst, hm] at h
    rw [hm]
    have heq : written (front m ps ++ mark m :: rest) =
        written (front m ps) ++ x :: ys ++ written rest := by simp [source, hm]
    rw [heq, Text.replaceFirst_append hx h]
    simp [source]

/-- If the mark occurs in front of the page's own one, that occurrence is replaced and the page's own one
is not. -/
theorem replaceFirst_written_of_not_ownFirst (h : ¬ OwnFirst m ps) (out : Text) :
    ∃ s r r', Text.replaceFirst m.text out (written ps) = s ++ (out ++ r) ∧
      written (place m out ps) = s ++ (m.text ++ r') := by
  obtain ⟨x, ys, hm, hx⟩ := text_eq_cons m
  have hx : x ∉ ys := by simpa [hm] using hx m
  obtain ⟨w, w', hps, hp⟩ : ∃ w w', written ps = written (front m ps) ++ w ∧
      written (place m out ps) = written (front m ps) ++ w' := by
    rcases front_cases m ps out with ⟨-, hf, hp⟩ | ⟨rest, hps, hp⟩
    · exact ⟨[], [], by rw [hf, List.append_nil], by rw [hp, hf, List.append_nil]⟩
    · refine ⟨m.text ++ written rest, out ++ written rest, ?_, by simp [hp, source]⟩
      conv => lhs; rw [hps]
      simp [source]
  rcases Text.replaceFirst_cases hx (written (front m ps)) out with ⟨hn, -⟩ | ⟨s, r, hf, hs, -⟩
  · exact absurd (by rwa [OwnFirst, hm]) h
  · refine ⟨s, r ++ w, r ++ w', ?_, by simp [hp, hf, hm]⟩
    have heq : written ps = s ++ x :: ys ++ (r ++ w) := by simp [hps, hf]
    rw [heq, hm, Text.replaceFirst_append hx hs]
    simp

theorem replaced_replaceFirst (m : Mark) (out t : Text) :
    Text.Replaced m.text out t (Text.replaceFirst m.text out t) := by
  obtain ⟨x, ys, hm, hx⟩ := text_eq_cons m
  have hx : x ∉ ys := by simpa [hm] using hx m
  rw [hm]
  exact Text.replaced_replaceFirst hx t out

theorem replaced_place (m : Mark) (out : Text) (ps : List PagePart) :
    Text.Replaced m.text out (written ps) (written (place m out ps)) := by
  rcases front_cases m ps out with ⟨-, -, hp⟩ | ⟨rest, hps, hp⟩
  · exact Or.inl (by rw [hp])
  · refine Or.inr ⟨written (front m ps), written rest, ?_, by simp [hp, source]⟩
    conv => lhs; rw [hps]
    simp [source]

/-- Placing a mark at itself changes nothing. -/
theorem written_place_self (m : Mark) (ps : List PagePart) :
    written (place m m.text ps) = written ps :=
  (replaced_place m m.text ps).eq_self

/-! ## Occurrences beside something that was placed -/

/-- A text over whose borders no mark reaches. -/
structure Sealed (u : Text) : Prop where
  ne_nil : u ≠ []
  head : ∀ (m : Mark), ∀ d ∈ u.head?, d ∉ m.text.tail
  last : ∀ (m : Mark), ∀ d ∈ u.getLast?, d ∉ m.text.dropLast

theorem sealed_angles (w : Text) : Sealed ('<' :: (w ++ ['>'])) where
  ne_nil := by simp
  head m := by cases m <;> simp <;> decide
  last m := by
    rw [← List.cons_append, List.getLast?_concat]
    cases m <;> simp <;> decide

theorem sealed_mark (m : Mark) : Sealed m.text where
  ne_nil := by cases m <;> decide
  head m' := by cases m <;> cases m' <;> decide
  last m' := by cases m <;> cases m' <;> decide

theorem Sealed.infix_append_iff {u : Text} (hu : Sealed u) (m : Mark) (a r : Text) :
    m.text <:+: a ++ (u ++ r) ↔ m.text <:+: a ∨ m.text <:+: u ∨ m.text <:+: r := by
  obtain ⟨x, ys, hm, -⟩ := text_eq_cons m
  have hlast := Text.infix_append_iff_of_last (b := r) (hu.last m)
  have hhead : ∀ d ∈ (u ++ r).head?, d ∉ ys := by
    have htail : ys = m.text.tail := by rw [hm, List.tail_cons]
    rw [htail, List.head?_append_of_ne_nil u hu.ne_nil]
    exact hu.head m
  rw [← hlast, hm]
  exact Text.infix_append_iff_of_head hhead

theorem not_infix_text (h : m ≠ m') : ¬ m'.text <:+: m.text := by
  cases m <;> cases m' <;> first | exact absurd rfl h | decide

/-- Placing a sealed text at a mark adds the occurrences of another mark that are in the text. -/
theorem infix_written_place_iff (h : m ≠ m') (hout : Sealed out) (ps : List PagePart) :
    m'.text <:+: written (place m out ps) ↔
      m'.text <:+: written ps ∨ mark m ∈ ps ∧ m'.text <:+: out := by
  rcases front_cases m ps out with ⟨hn, -, hp⟩ | ⟨rest, hps, hp⟩
  · simp [hp, hn]
  · have hmem : mark m ∈ ps := by
      rw [hps]
      simp
    have hwritten : written ps = written (front m ps) ++ (m.text ++ written rest) := by
      conv => lhs; rw [hps]
      simp [source]
    have hplaced : written (place m out ps) = written (front m ps) ++ (out ++ written rest) := by
      simp [hp, source]
    -- the same stands around the mark and around the text, and no other mark occurs in the mark itself
    rw [hplaced, hwritten, hout.infix_append_iff, (sealed_mark m).infix_append_iff]
    have := not_infix_text h
    tauto

/-! ## Frontmatter -/

/-- A part with the frontmatter filled in; marks are left alone. -/
def fill (frontmatter : Fields) : PagePart → PagePart
  | text t => text (replaceFrontmatter frontmatter t)
  | mark m => mark m

/-- No placeholder for frontmatter that begins in a text of the page reaches into what follows the
text. -/
def Apart : List PagePart → Prop
  | [] => True
  | text t :: ps =>
    (∀ s name w tail, s <:+ t → s ≠ [] →
      Placeholder.parse? (Placeholder.scopeOpening "frontmatter".toList) Placeholder.isPathChar
        (s ++ written ps) = some (name, w, tail) → written ps <:+ tail) ∧ Apart ps
  | mark _ :: ps => Apart ps

/-- A page without braces in its texts has no such placeholder. -/
theorem apart_of_notMem (h : ∀ t, text t ∈ ps → '\x7b' ∉ t) : Apart ps := by
  induction ps with
  | nil => trivial
  | cons p ps ih =>
    have hps := ih fun t ht => h t (List.mem_cons_of_mem _ ht)
    cases p with
    | mark m => exact hps
    | text t =>
      refine ⟨fun s name w tail hs hn hp => ?_, hps⟩
      obtain ⟨c, s, rfl⟩ := List.exists_cons_of_ne_nil hn
      obtain ⟨u, hu, -, -⟩ := Placeholder.eq_append_of_parse? hp
      have hc : c = '\x7b' := by
        simp only [Placeholder.scopeOpening, List.cons_append, List.cons.injEq] at hu
        exact hu.1
      exact absurd (hs.subset (hc ▸ List.mem_cons_self)) (h t List.mem_cons_self)

/-- No placeholder for frontmatter begins in a mark. -/
private theorem parse?_frontmatter_mark {s b : Text} (hs : s <:+ m.text) (hn : s ≠ []) :
    Placeholder.parse? (Placeholder.scopeOpening "frontmatter".toList) Placeholder.isPathChar
      (s ++ b) = none := by
  have hstart : ∀ s ∈ m.text.tails, s ≠ ['\x7b'] ∧ s.take 2 ≠ ['\x7b', 'f'] := by
    cases m <;> decide
  obtain ⟨h1, h2⟩ := hstart s ((List.mem_tails _ _).2 hs)
  have hafter : Text.after? (Placeholder.scopeOpening "frontmatter".toList) (s ++ b) = none := by
    rw [Text.after?_eq_none_iff]
    rintro ⟨r, hr⟩
    rw [Placeholder.scopeOpening] at hr
    obtain ⟨c, s, rfl⟩ := List.exists_cons_of_ne_nil hn
    cases s with
    | nil =>
      rw [List.cons_append, List.cons_append, List.cons_append, List.cons.injEq] at hr
      exact h1 (by rw [hr.1])
    | cons d s =>
      change '\x7b' :: 'f' :: _ = c :: d :: _ at hr
      rw [List.cons.injEq, List.cons.injEq] at hr
      exact h2 (by rw [← hr.1, ← hr.2.1]; rfl)
  rw [Placeholder.parse?, hafter]
  rfl

/-- A page is filled in part by part. -/
theorem replaceFrontmatter_written (h : Apart ps) (frontmatter : Fields) :
    replaceFrontmatter frontmatter (written ps) = written (ps.map (fill frontmatter)) := by
  induction ps with
  | nil =>
    unfold replaceFrontmatter replaceScoped Placeholder.replace
    rw [written_nil, List.map_nil, written_nil, Text.substitute]
  | cons p ps ih =>
    cases p with
    | text t =>
      rw [List.map_cons, written_cons, written_cons, ← ih h.2]
      exact Placeholder.replace_append (by decide) h.1
    | mark m =>
      -- a mark is passed over character by character
      rw [List.map_cons, written_cons, written_cons, ← ih h]
      refine Text.substitute_append_left fun s hs hn => ?_
      rw [parse?_frontmatter_mark hs hn]

end PagePart

end Pagewright
