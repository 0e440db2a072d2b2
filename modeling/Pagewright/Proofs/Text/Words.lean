import Mathlib.Data.List.Basic
import Pagewright.Proofs.Text.Occurrence

/-!
# Words of a text

The words of a text are what stands between separators, whatever characters these are (`words`). Four things live
here:

* a text is read word by word (`word_induction`), and a separator cuts it into two texts with words of their own
  (`words_append_cons`);
* words that are written with a separator between them are read back (`words_join`);
* two texts that are put together have the words of both, unless the last word of the first one goes on in the second
  one (`words_append_of_parted`, `words_append_of_not_parted`);
* so a text that is gathered from pieces has the words of the same pieces with separators among them if and only if no
  word goes on where a separator is left out (`words_flatMap_eq_iff`).
-/

namespace Pagewright.Text

variable {p : Char → Bool} {c : Char} {s t u w : Text}

/-- What stands between the separators of a text, without what is empty. -/
def words (p : Char → Bool) (t : Text) : List Text := (t.splitOnP p).filter (· ≠ [])

/-! ## Separators -/

theorem words_nil : words p [] = [] := by
  rw [words, List.splitOnP_nil]
  rfl

/-- A separator cuts a text into two. -/
theorem words_append_cons (hc : p c) (s t : Text) : words p (s ++ c :: t) = words p s ++ words p t := by
  rw [words, List.splitOnP_append_cons s t hc, List.filter_append]
  rfl

theorem words_cons (hc : p c) (t : Text) : words p (c :: t) = words p t := by
  have h := words_append_cons hc [] t
  rwa [words_nil, List.nil_append, List.nil_append] at h

theorem words_separators_append (hs : ∀ c ∈ s, p c) (t : Text) : words p (s ++ t) = words p t := by
  induction s with
  | nil => rfl
  | cons c s ih =>
    obtain ⟨hc, hs⟩ := List.forall_mem_cons.1 hs
    rw [List.cons_append, words_cons hc, ih hs]

theorem words_append_separators (ht : ∀ c ∈ t, p c) (s : Text) : words p (s ++ t) = words p s := by
  cases t with
  | nil => rw [List.append_nil]
  | cons c t =>
    obtain ⟨hc, ht⟩ := List.forall_mem_cons.1 ht
    have hnone := words_separators_append ht []
    rw [List.append_nil, words_nil] at hnone
    rw [words_append_cons hc, hnone, List.append_nil]

theorem words_singleton (hne : w ≠ []) (hw : ∀ c ∈ w, p c = false) : words p w = [w] := by
  rw [words, List.splitOnP_eq_singleton hw]
  simp [hne]

/-- A word ends with the text or at a separator. -/
theorem words_append (hne : w ≠ []) (hw : ∀ c ∈ w, p c = false) (ht : ∀ c ∈ t.head?, p c) :
    words p (w ++ t) = w :: words p t := by
  cases t with
  | nil => rw [List.append_nil, words_singleton hne hw, words_nil]
  | cons c t =>
    have hc : p c := ht c rfl
    rw [words_append_cons hc, words_singleton hne hw, words_cons hc]
    rfl

/-- Every text is read separator by separator and word by word. -/
theorem word_induction {motive : Text → Prop} (p : Char → Bool) (nil : motive [])
    (separator : ∀ c t, p c → motive t → motive (c :: t))
    (word : ∀ w t, w ≠ [] → (∀ c ∈ w, p c = false) → (∀ c ∈ t.head?, p c) → motive t → motive (w ++ t))
    (t : Text) : motive t := by
  induction hlen : t.length using Nat.strongRecOn generalizing t with
  | _ n ih =>
    cases t with
    | nil => exact nil
    | cons c r =>
      subst hlen
      cases hc : p c with
      | true => exact separator c r hc (ih r.length (Nat.lt_succ_self _) r rfl)
      | false =>
        have hhead : ∀ d ∈ (r.dropWhile (!p ·)).head?, p d := by
          intro d hd
          simpa using of_mem_head?_dropWhile hd
        have hword : ∀ d ∈ c :: r.takeWhile (!p ·), p d = false := by
          intro d hd
          rcases List.mem_cons.1 hd with rfl | hd
          · exact hc
          · simpa using List.all_eq_true.1 (List.all_takeWhile (p := (!p ·)) (l := r)) d hd
        have hrest := ih (r.dropWhile (!p ·)).length
          (Nat.lt_succ_of_le (length_dropWhile_le _ r)) _ rfl
        have hmotive := word (c :: r.takeWhile (!p ·)) _ (List.cons_ne_nil _ _) hword hhead hrest
        rwa [List.cons_append, List.takeWhile_append_dropWhile] at hmotive

/-- The words have all characters of the text but the separators. -/
theorem flatten_words (p : Char → Bool) (t : Text) : (words p t).flatten = t.filter (!p ·) := by
  induction t using word_induction p with
  | nil =>
    rw [words_nil]
    rfl
  | separator c t hc ih => rw [words_cons hc, ih, List.filter_cons_of_neg (by simp [hc])]
  | word w t hne hw ht ih =>
    have hall : w.filter (!p ·) = w := List.filter_eq_self.2 fun c hc => by simp [hw c hc]
    rw [words_append hne hw ht, List.flatten_cons, ih, List.filter_append, hall]

theorem of_mem_words (h : w ∈ words p t) : w ≠ [] ∧ (∀ c ∈ w, p c = false) ∧ ∀ c ∈ w, c ∈ t := by
  obtain ⟨-, hne⟩ := List.mem_filter.1 h
  have hmem : ∀ c ∈ w, c ∈ t.filter (!p ·) := by
    intro c hc
    rw [← flatten_words]
    exact List.mem_flatten_of_mem h hc
  refine ⟨by simpa using hne, fun c hc => ?_, fun c hc => (List.mem_filter.1 (hmem c hc)).1⟩
  simpa using (List.mem_filter.1 (hmem c hc)).2

/-! ## Blanks at the two ends -/

theorem exists_eq_trim (t : Text) :
    ∃ front back, t = front ++ (trim t ++ back) ∧ (∀ c ∈ front, isBlank c) ∧ ∀ c ∈ back, isBlank c := by
  have hstart : t.takeWhile isBlank ++ trimStart t = t := List.takeWhile_append_dropWhile
  have hend : trim t ++ ((trimStart t).reverse.takeWhile isBlank).reverse = trimStart t := by
    rw [trim, trimEnd, ← List.reverse_append, List.takeWhile_append_dropWhile, List.reverse_reverse]
  refine ⟨t.takeWhile isBlank, ((trimStart t).reverse.takeWhile isBlank).reverse, ?_, ?_, ?_⟩
  · rw [hend, hstart]
  · exact List.all_eq_true.1 List.all_takeWhile
  · intro c hc
    exact List.all_eq_true.1 List.all_takeWhile c (List.mem_reverse.1 hc)

theorem words_trim (t : Text) : words isBlank (trim t) = words isBlank t := by
  obtain ⟨front, back, ht, hfront, hback⟩ := exists_eq_trim t
  calc words isBlank (trim t) = words isBlank (front ++ (trim t ++ back)) := by
        rw [words_separators_append hfront, words_append_separators hback]
    _ = words isBlank t := by rw [← ht]

/-! ## Words with a separator between them -/

section Join

variable {l : List Text}

theorem join_cons {sep : Text} (hl : l ≠ []) : join sep (s :: l) = s ++ sep ++ join sep l := by
  obtain ⟨u, l, rfl⟩ := List.exists_cons_of_ne_nil hl
  rfl

theorem mem_join (h : c ∈ join s l) : c ∈ s ∨ ∃ w ∈ l, c ∈ w := by
  induction l with
  | nil => cases h
  | cons w l ih =>
    by_cases hl : l = []
    · subst hl
      exact Or.inr ⟨w, List.mem_singleton_self w, h⟩
    · rw [join_cons hl, List.mem_append, List.mem_append] at h
      rcases h with (h | h) | h
      · exact Or.inr ⟨w, List.mem_cons_self, h⟩
      · exact Or.inl h
      · exact (ih h).imp_right fun ⟨v, hv, hc⟩ => ⟨v, List.mem_cons_of_mem _ hv, hc⟩

theorem mem_join_of_mem (hw : w ∈ l) (hc : c ∈ w) : c ∈ join s l := by
  induction l with
  | nil => cases hw
  | cons v l ih =>
    by_cases hl : l = []
    · subst hl
      rwa [← List.mem_singleton.1 hw]
    · rw [join_cons hl, List.mem_append, List.mem_append]
      rcases List.mem_cons.1 hw with rfl | hw
      · exact Or.inl (Or.inl hc)
      · exact Or.inr (ih hw)

/-- Words are read back with any separator between them. -/
theorem words_join (hc : p c) (hl : ∀ w ∈ l, w ≠ [] ∧ ∀ c ∈ w, p c = false) : words p (join [c] l) = l := by
  induction l with
  | nil => exact words_nil
  | cons w l ih =>
    obtain ⟨⟨hne, hw⟩, hrest⟩ := List.forall_mem_cons.1 hl
    by_cases hnil : l = []
    · subst hnil
      exact words_singleton hne hw
    · rw [join_cons hnil, List.append_assoc, List.singleton_append, words_append_cons hc, words_singleton hne hw, ih hrest]
      rfl

end Join

/-! ## Texts that are put together -/

/-- No word of the first text can go on in the second one: a separator is between them, or one of them is empty. -/
def Parted (p : Char → Bool) (s t : Text) : Prop := (∀ c ∈ s.getLast?, p c) ∨ ∀ c ∈ t.head?, p c

instance (p : Char → Bool) (s t : Text) : Decidable (Parted p s t) :=
  @instDecidableOr _ _ (Option.decidableForallMem _) (Option.decidableForallMem _)

theorem words_append_of_parted (h : Parted p s t) : words p (s ++ t) = words p s ++ words p t := by
  rcases h with h | h
  · rcases List.eq_nil_or_concat s with rfl | ⟨front, c, rfl⟩
    · rw [words_nil]
      rfl
    · have hc : p c := h c (by simp)
      rw [List.concat_eq_append, List.append_assoc, List.singleton_append, words_append_cons hc, words_append_cons hc,
        words_nil, List.append_nil]
  · cases t with
    | nil => rw [words_nil, List.append_nil, List.append_nil]
    | cons c t =>
      have hc : p c := h c rfl
      rw [words_append_cons hc, words_cons hc]

theorem parted_append_iff (hs : s ≠ []) (u : Text) : Parted p (u ++ s) t ↔ Parted p s t := by
  rw [Parted, Parted, List.getLast?_append_of_ne_nil u hs]

theorem Parted.of_append (h : Parted p (u ++ s) t) : Parted p s t := by
  by_cases hs : s = []
  · exact Or.inl (by simp [hs])
  · exact (parted_append_iff hs u).1 h

/-- What parts a text from the second part of another one, and from all of it where there is no first part. -/
theorem Parted.append_left (hs : Parted p s (u ++ t)) (hu : Parted p u t) : Parted p (s ++ u) t := by
  by_cases hne : u = []
  · rwa [hne, List.append_nil, ← List.nil_append t, ← hne]
  · exact (parted_append_iff hne s).2 hu

/-- A text that does not begin with a separator begins with a word. -/
theorem exists_word (h : ¬ ∀ c ∈ t.head?, p c) :
    ∃ w r, t = w ++ r ∧ w ≠ [] ∧ (∀ c ∈ w, p c = false) ∧ ∀ c ∈ r.head?, p c := by
  induction t using word_induction p with
  | nil => exact absurd (by simp) h
  | separator c t hc => exact absurd (by simpa using hc) h
  | word w t hne hw ht => exact ⟨w, t, rfl, hne, hw, ht⟩

/-- Where a word goes on, it is one word of both texts. -/
theorem words_append_of_not_parted (h : ¬ Parted p s t) :
    ∃ front v w back, words p s = front ++ [v] ∧ words p t = w :: back ∧
      words p (s ++ t) = front ++ (v ++ w) :: back := by
  obtain ⟨w, r, rfl, hne, hw, hr⟩ := exists_word fun ht => h (Or.inr ht)
  induction s using word_induction p with
  | nil => exact absurd (Or.inl (by simp)) h
  | separator c s hc ih =>
    have hs : s ≠ [] := by
      rintro rfl
      exact h (Or.inl (by simpa using hc))
    obtain ⟨front, v, w', back, hleft, hright, hboth⟩ := ih fun hparted => h ((parted_append_iff hs [c]).2 hparted)
    rw [List.cons_append, words_cons hc, words_cons hc]
    exact ⟨front, v, w', back, hleft, hright, hboth⟩
  | word v s hv hword hs ih =>
    cases s with
    | nil =>
      have hjoined : ∀ c ∈ v ++ w, p c = false := by
        intro c hc
        rcases List.mem_append.1 hc with hc | hc
        · exact hword c hc
        · exact hw c hc
      refine ⟨[], v, w, words p r, ?_, words_append hne hw hr, ?_⟩
      · rw [List.append_nil, words_singleton hv hword]
        rfl
      · rw [List.append_nil, ← List.append_assoc, words_append (by simp [hv]) hjoined hr]
        rfl
    | cons c s =>
      obtain ⟨front, v', w', back, hleft, hright, hboth⟩ := ih fun hparted =>
        h ((parted_append_iff (List.cons_ne_nil c s) v).2 hparted)
      refine ⟨v :: front, v', w', back, ?_, hright, ?_⟩
      · rw [words_append hv hword hs, hleft]
        rfl
      · have hhead : ∀ d ∈ (c :: s ++ (w ++ r)).head?, p d := hs
        rw [List.append_assoc, words_append hv hword hhead, hboth]
        rfl

/-- Put together, two texts have no more words than before, and as many only if no word goes on. -/
theorem length_words_append (p : Char → Bool) (s t : Text) :
    (words p (s ++ t)).length ≤ (words p s).length + (words p t).length ∧
      ((words p (s ++ t)).length = (words p s).length + (words p t).length → Parted p s t) := by
  by_cases h : Parted p s t
  · rw [words_append_of_parted h, List.length_append]
    exact ⟨Nat.le_refl _, fun _ => h⟩
  · obtain ⟨front, v, w, back, hs, ht, hst⟩ := words_append_of_not_parted h
    rw [hs, ht, hst]
    simp only [List.length_append, List.length_cons, List.length_nil]
    exact ⟨by omega, fun heq => by omega⟩

/-! ## Texts that are gathered from pieces -/

section Pieces

variable {α : Type} {f g : α → Text} {l : List α}

/-- The second texts are the first ones with separators in the place of some that are empty. -/
def Separates (p : Char → Bool) (f g : α → Text) : Prop :=
  ∀ a, g a = f a ∨ f a = [] ∧ ∃ c, p c ∧ g a = [c]

theorem Separates.eq_nil (h : Separates p f g) {a : α} (ha : g a ≠ f a) : f a = [] :=
  (h a).elim (fun heq => absurd heq ha) And.left

/-- Where a separator is left out, no word goes on, also none that begins in a text in front. -/
def PartedFrom (p : Char → Bool) (f g : α → Text) (s : Text) (l : List α) : Prop :=
  ∀ front a back, l = front ++ a :: back → g a ≠ f a → Parted p (s ++ front.flatMap f) (back.flatMap f)

theorem partedFrom_cons_of_eq {a : α} (ha : g a = f a) :
    PartedFrom p f g s (a :: l) ↔ PartedFrom p f g (s ++ f a) l := by
  constructor
  · intro h front b back hl hb
    have hparted := h (a :: front) b back (by rw [hl, List.cons_append]) hb
    rwa [List.flatMap_cons, ← List.append_assoc] at hparted
  · intro h front b back hl hb
    cases front with
    | nil =>
      obtain ⟨rfl, -⟩ := List.cons.inj hl
      exact absurd ha hb
    | cons a' front =>
      obtain ⟨rfl, hrest⟩ := List.cons.inj hl
      rw [List.flatMap_cons, ← List.append_assoc]
      exact h front b back hrest hb

/-- What is in front of a separator that is left out matters only there. -/
theorem partedFrom_cons_of_ne (hfg : Separates p f g) {a : α} (ha : g a ≠ f a) :
    PartedFrom p f g s (a :: l) ↔ Parted p s (l.flatMap f) ∧ PartedFrom p f g [] l := by
  have hempty := hfg.eq_nil ha
  constructor
  · intro h
    constructor
    · have hparted := h [] a l rfl ha
      rwa [List.flatMap_nil, List.append_nil] at hparted
    · intro front b back hl hb
      have hparted := h (a :: front) b back (by rw [hl, List.cons_append]) hb
      rw [List.flatMap_cons, hempty, List.nil_append] at hparted
      exact hparted.of_append
  · rintro ⟨hs, h⟩ front b back hl hb
    cases front with
    | nil =>
      obtain ⟨rfl, rfl⟩ := List.cons.inj hl
      rwa [List.flatMap_nil, List.append_nil]
    | cons a' front =>
      obtain ⟨rfl, hrest⟩ : a = a' ∧ l = front ++ b :: back := List.cons.inj hl
      rw [List.flatMap_cons, hempty, List.nil_append]
      rw [hrest, List.flatMap_append, List.flatMap_cons, hfg.eq_nil hb, List.nil_append] at hs
      exact hs.append_left (h front b back hrest hb)

/-- Where no word goes on, the words are the same with the separators. -/
theorem words_append_flatMap (hfg : Separates p f g) (h : PartedFrom p f g s l) :
    words p (s ++ l.flatMap f) = words p (s ++ l.flatMap g) := by
  induction l generalizing s with
  | nil => rfl
  | cons a l ih =>
    rw [List.flatMap_cons, List.flatMap_cons]
    by_cases ha : g a = f a
    · rw [ha, ← List.append_assoc, ← List.append_assoc]
      exact ih ((partedFrom_cons_of_eq ha).1 h)
    · obtain ⟨hs, hl⟩ := (partedFrom_cons_of_ne hfg ha).1 h
      obtain ⟨c, hc, hsep⟩ := ((hfg a).resolve_left ha).2
      have hrest := ih hl
      rw [List.nil_append, List.nil_append] at hrest
      rw [hfg.eq_nil ha, hsep, List.nil_append, List.singleton_append, words_append_cons hc,
        words_append_of_parted hs, hrest]

/-- With the separators there are as many words at least. -/
theorem length_words_append_flatMap_le (hfg : Separates p f g) (s : Text) (l : List α) :
    (words p (s ++ l.flatMap f)).length ≤ (words p (s ++ l.flatMap g)).length := by
  induction l generalizing s with
  | nil => exact Nat.le_refl _
  | cons a l ih =>
    rw [List.flatMap_cons, List.flatMap_cons]
    by_cases ha : g a = f a
    · rw [ha, ← List.append_assoc, ← List.append_assoc]
      exact ih (s ++ f a)
    · obtain ⟨c, hc, hsep⟩ := ((hfg a).resolve_left ha).2
      have hrest := ih []
      have happend := (length_words_append p s (l.flatMap f)).1
      rw [List.nil_append, List.nil_append] at hrest
      rw [hfg.eq_nil ha, hsep, List.nil_append, List.singleton_append, words_append_cons hc, List.length_append]
      exact Nat.le_trans happend (Nat.add_le_add_left hrest _)

/-- There are more words with the separators where one goes on without them. -/
theorem partedFrom_of_length_eq (hfg : Separates p f g)
    (h : (words p (s ++ l.flatMap f)).length = (words p (s ++ l.flatMap g)).length) : PartedFrom p f g s l := by
  induction l generalizing s with
  | nil => exact fun front a back hl => absurd hl (by simp)
  | cons a l ih =>
    rw [List.flatMap_cons, List.flatMap_cons] at h
    by_cases ha : g a = f a
    · rw [ha, ← List.append_assoc, ← List.append_assoc] at h
      exact (partedFrom_cons_of_eq ha).2 (ih h)
    · obtain ⟨c, hc, hsep⟩ := ((hfg a).resolve_left ha).2
      have hrest := length_words_append_flatMap_le hfg [] l
      obtain ⟨happend, hparted⟩ := length_words_append p s (l.flatMap f)
      rw [hfg.eq_nil ha, hsep, List.nil_append, List.singleton_append, words_append_cons hc, List.length_append] at h
      rw [List.nil_append, List.nil_append] at hrest
      refine (partedFrom_cons_of_ne hfg ha).2 ⟨hparted (by omega), ih ?_⟩
      rw [List.nil_append, List.nil_append]
      omega

/-- The words are the same with the separators if and only if no word goes on, and they are if there are as many. -/
theorem words_flatMap_eq_iff (hfg : Separates p f g) (l : List α) :
    (words p (l.flatMap f) = words p (l.flatMap g) ↔ PartedFrom p f g [] l) ∧
      ((words p (l.flatMap f)).length = (words p (l.flatMap g)).length ↔ PartedFrom p f g [] l) := by
  have hwords : PartedFrom p f g [] l → words p (l.flatMap f) = words p (l.flatMap g) := words_append_flatMap hfg
  have hlength : (words p (l.flatMap f)).length = (words p (l.flatMap g)).length → PartedFrom p f g [] l :=
    fun h => partedFrom_of_length_eq (s := []) hfg h
  exact ⟨⟨fun h => hlength (congrArg List.length h), hwords⟩, hlength, fun h => congrArg List.length (hwords h)⟩

end Pieces

end Pagewright.Text
