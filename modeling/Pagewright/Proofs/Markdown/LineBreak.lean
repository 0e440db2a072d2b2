import Pagewright.Proofs.Markdown.Heading
import Pagewright.Proofs.Markdown.Slug

/-!
# Line breaks in headings

The text of a heading is gathered from the texts and the code within it, and the line breaks among them are passed
over. Three things live here:

* what is reported of headings, for all events: each heading that opens and closes, with what is between
  (`Encloses`, `mem_foundFrom_iff`);
* the same text with line breaks read as blanks (`Event.spacedText`), and where a word goes on over a line break
  (`BreaksPart`);
* so the text of a heading has the words that its line breaks separate if and only if at each of them there is a blank
  anyway, or nothing on one of its sides, and the same for the words of its slug (`headings_words_iff`).
-/

namespace Pagewright.Markdown

open Slugger Text

variable {es front inner rest : List Event} {e : Event} {i index level : ℕ} {t : Text} {current : OpenHeading}

/-! ## Headings in all events -/

/-- A heading opens at an index of events and closes, and these are the events between. -/
structure Encloses (es : List Event) (index level : ℕ) (inner : List Event) : Prop where
  split : ∃ front back id level' id', front.length = index ∧
    es = front ++ .opens (.heading level id) :: (inner ++ .closes (.heading level' id') :: back)
  flat : ∀ e ∈ inner, e.isOfHeading = false

theorem Event.isOfHeading_cases (e : Event) :
    e.isOfHeading = false ∨ (∃ level id, e = .opens (.heading level id)) ∨ ∃ level id, e = .closes (.heading level id) := by
  unfold Event.isOfHeading
  split
  · exact Or.inr (Or.inl ⟨_, _, rfl⟩)
  · exact Or.inr (Or.inr ⟨_, _, rfl⟩)
  · exact Or.inl rfl

/-- Whatever comes in front, what is found behind it is found there, in the state that it leaves. -/
theorem exists_foundFrom_append (index : ℕ) (current : OpenHeading) (front rest : List Event) :
    ∃ found current', foundFrom index current (front ++ rest) =
      found ++ foundFrom (index + front.length) current' rest := by
  induction front generalizing index current with
  | nil => exact ⟨[], current, rfl⟩
  | cons e front ih =>
    have hlength : index + (e :: front).length = index + 1 + front.length := by
      rw [List.length_cons]
      omega
    rw [List.cons_append, hlength]
    rcases e.isOfHeading_cases with he | ⟨level, id, rfl⟩ | ⟨level, id, rfl⟩
    · rw [foundFrom_cons he]
      exact ih _ _
    · rw [foundFrom]
      exact ih _ _
    · obtain ⟨found, current', hrest⟩ := ih (index + 1) none
      rw [foundFrom, hrest, ← List.append_assoc]
      exact ⟨_, current', rfl⟩

/-- The heading that events are within, for the events in front of them. -/
def OpenedBy (front : List Event) (current : OpenHeading) : Prop :=
  ∀ i level s, current = some (i, level, s) → ∃ before id inner, before.length = i ∧
    front = before ++ .opens (.heading level id) :: inner ∧ (∀ e ∈ inner, e.isOfHeading = false) ∧
    s = inner.flatMap Event.headingText

theorem openedBy_none (front : List Event) : OpenedBy front none := fun _ _ _ h => by cases h

theorem openedBy_opens (front : List Event) (level : ℕ) (id : Option Text) :
    OpenedBy (front ++ [.opens (.heading level id)]) (some (front.length, level, [])) := by
  intro i level' s hs
  obtain ⟨rfl, rfl, rfl⟩ : front.length = i ∧ level = level' ∧ [] = s := by simpa using hs
  exact ⟨front, id, [], rfl, rfl, by simp, rfl⟩

theorem OpenedBy.concat (h : OpenedBy front current) (he : e.isOfHeading = false) :
    OpenedBy (front ++ [e]) (current.map fun (i, level, s) => (i, level, s ++ e.headingText)) := by
  intro i level s hs
  obtain ⟨⟨i', level', s'⟩, hcurrent, heq⟩ := Option.map_eq_some_iff.1 hs
  obtain ⟨rfl, rfl, rfl⟩ : i' = i ∧ level' = level ∧ s' ++ e.headingText = s := by simpa using heq
  obtain ⟨before, id, inner, hlength, rfl, hinner, rfl⟩ := h _ _ _ hcurrent
  refine ⟨before, id, inner ++ [e], hlength, by simp, ?_, by simp⟩
  intro e' he'
  rcases List.mem_append.1 he' with he' | he'
  · exact hinner e' he'
  · rwa [List.mem_singleton.1 he']

/-- What is found is what headings enclose. The events in front are those that lead to the heading that is open. -/
theorem exists_encloses_of_mem_foundFrom (hopen : OpenedBy front current)
    (h : (i, level, t) ∈ foundFrom front.length current es) :
    ∃ inner, Encloses (front ++ es) i level inner ∧ t = trim (inner.flatMap Event.headingText) := by
  induction es generalizing front current with
  | nil => cases h
  | cons e es ih =>
    have hlength : (front ++ [e]).length = front.length + 1 := by simp
    rw [List.append_cons]
    rcases e.isOfHeading_cases with he | ⟨level', id, rfl⟩ | ⟨level', id, rfl⟩
    · rw [foundFrom_cons he, ← hlength] at h
      exact ih (hopen.concat he) h
    · rw [foundFrom, ← hlength] at h
      exact ih (openedBy_opens front level' id) h
    · rw [foundFrom, ← hlength] at h
      rcases List.mem_append.1 h with h | h
      · obtain ⟨⟨i', level'', s⟩, hcurrent, heq⟩ := Option.map_eq_some_iff.1 (Option.mem_toList.1 h)
        obtain ⟨rfl, rfl, rfl⟩ : i' = i ∧ level'' = level ∧ trim s = t := by simpa using heq
        obtain ⟨before, id', inner, hindex, rfl, hinner, rfl⟩ := hopen _ _ _ hcurrent
        exact ⟨inner, ⟨⟨before, es, id', level', id, hindex, by simp⟩, hinner⟩, rfl⟩
      · exact ih (openedBy_none _) h

/-- Each heading is found where it opens, with the text of what it encloses, and nothing else is found. -/
theorem mem_foundFrom_iff :
    (i, level, t) ∈ foundFrom 0 none es ↔
      ∃ inner, Encloses es i level inner ∧ t = trim (inner.flatMap Event.headingText) := by
  constructor
  · intro h
    obtain ⟨inner, hinner, ht⟩ := exists_encloses_of_mem_foundFrom (openedBy_none []) h
    exact ⟨inner, hinner, ht⟩
  · rintro ⟨inner, ⟨⟨front, back, id, level', id', rfl, rfl⟩, hinner⟩, rfl⟩
    obtain ⟨found, current, heq⟩ := exists_foundFrom_append 0 none front
      (.opens (.heading level id) :: (inner ++ .closes (.heading level' id') :: back))
    have hopens : foundFrom (0 + front.length) current
          (.opens (.heading level id) :: (inner ++ .closes (.heading level' id') :: back)) =
        foundFrom (0 + front.length) none
          (.opens (.heading level id) :: (inner ++ .closes (.heading level' id') :: back)) := rfl
    rw [heq, hopens, foundFrom_heading level level' id id' hinner, Nat.zero_add]
    exact List.mem_append_right _ List.mem_cons_self

/-! ## Line breaks -/

namespace Event

/-- Does a line end without a paragraph ending? -/
def isBreak : Event → Bool
  | .softBreak | .hardBreak => true
  | _ => false

/-- The text that an event gives to the heading around it, where line breaks are read as blanks. -/
def spacedText (e : Event) : Text := if e.isBreak then [' '] else e.headingText

end Event

/-- The text of a heading that its line breaks separate. -/
def spacedText (inner : List Event) : Text := inner.flatMap Event.spacedText

/-- At each line break, what comes before it and what comes behind are parted anyway. -/
def BreaksPart (parted : Text → Text → Prop) (inner : List Event) : Prop :=
  ∀ front e back, inner = front ++ e :: back → e.isBreak →
    parted (front.flatMap Event.headingText) (back.flatMap Event.headingText)

/-- The slugs of two texts are parted: one of them has nothing in a slug, or there is a separator between the last
letter of the first one and the first letter of the second one. -/
def SlugParted (s t : Text) : Prop := Parted isSeparator (s.filter isSlugChar) (t.filter isSlugChar)

section Kept

variable {p kept : Char → Bool}

/-- Line breaks that are read as blanks separate, whatever else of the texts is passed over. -/
theorem separates_filter (hp : p ' ') (hkept : kept ' ') :
    Separates p (fun e : Event => e.headingText.filter kept) fun e => e.spacedText.filter kept := by
  intro e
  cases he : e.isBreak with
  | false => exact Or.inl (by simp [Event.spacedText, he])
  | true =>
    refine Or.inr ⟨?_, ' ', hp, ?_⟩
    · cases e <;> first | rfl | cases he
    · simp [Event.spacedText, he, hkept]

theorem partedFrom_iff (hkept : kept ' ') :
    PartedFrom p (fun e : Event => e.headingText.filter kept) (fun e => e.spacedText.filter kept) [] inner ↔
      BreaksPart (fun s t => Parted p (s.filter kept) (t.filter kept)) inner := by
  have hne : ∀ e : Event, e.spacedText.filter kept ≠ e.headingText.filter kept ↔ e.isBreak := by
    intro e
    cases e <;> simp [Event.spacedText, Event.isBreak, Event.headingText, hkept]
  unfold PartedFrom BreaksPart
  simp only [hne, List.nil_append, List.filter_flatMap]

variable (p kept) in
/-- The words that line breaks separate are there without them if and only if no word goes on over a line break, and
they are if there are as many. -/
theorem words_spacedText_iff (hp : p ' ') (hkept : kept ' ') (inner : List Event) :
    (words p ((inner.flatMap Event.headingText).filter kept) = words p ((spacedText inner).filter kept) ↔
      BreaksPart (fun s t => Parted p (s.filter kept) (t.filter kept)) inner) ∧
    ((words p ((inner.flatMap Event.headingText).filter kept)).length =
        (words p ((spacedText inner).filter kept)).length ↔
      BreaksPart (fun s t => Parted p (s.filter kept) (t.filter kept)) inner) := by
  rw [spacedText, List.filter_flatMap, List.filter_flatMap, ← partedFrom_iff hkept]
  exact words_flatMap_eq_iff (separates_filter hp hkept) inner

end Kept

/-- The words of the text itself. -/
theorem words_headingText_iff (inner : List Event) :
    words isBlank (trim (inner.flatMap Event.headingText)) = words isBlank (spacedText inner) ↔
      BreaksPart (Parted isBlank) inner := by
  have hwords := (words_spacedText_iff isBlank (fun _ => true) (by decide) rfl inner).1
  rw [words_trim]
  simpa only [List.filter_true] using hwords

/-- The words of the slug: slugs are the same where they have as many words. -/
theorem slugify_headingText_iff (inner : List Event) :
    slugify (trim (inner.flatMap Event.headingText)) = slugify (spacedText inner) ↔ BreaksPart SlugParted inner := by
  obtain ⟨hwords, hlength⟩ := words_spacedText_iff isSeparator isSlugChar (by decide) (by decide) inner
  constructor
  · intro h
    have hcount := length_slugWords_eq h
    rw [slugWords_trim] at hcount
    exact hlength.1 hcount
  · intro h
    rw [slugify_eq_dashed, slugify_eq_dashed, slugWords_trim]
    exact congrArg dashed (hwords.2 h)

/-! ## The headings of events -/

theorem of_mem_assign {s : Slugger} {found : List (ℕ × ℕ × Text)} {h : Heading} (hh : h ∈ s.assign found) :
    (h.index, h.level, h.text) ∈ found ∧ ∃ n, h.slug = numbered (slugify h.text) n := by
  induction found generalizing s with
  | nil => cases hh
  | cons a found ih =>
    rcases List.mem_cons.1 hh with rfl | hh
    · obtain ⟨n, -, -, -, -, hunique⟩ := s.exists_unique_eq a.2.2
      exact ⟨List.mem_cons_self, n, by rw [hunique]⟩
    · exact (ih hh).imp_left (List.mem_cons_of_mem _)

theorem exists_mem_assign (s : Slugger) {found : List (ℕ × ℕ × Text)} (h : (i, level, t) ∈ found) :
    ∃ h ∈ s.assign found, h.index = i ∧ h.level = level ∧ h.text = t := by
  induction found generalizing s with
  | nil => cases h
  | cons a found ih =>
    rcases List.mem_cons.1 h with rfl | h
    · exact ⟨_, List.mem_cons_self, rfl, rfl, rfl⟩
    · obtain ⟨g, hg, heq⟩ := ih (s.unique a.2.2).2.2 h
      exact ⟨g, List.mem_cons_of_mem _ hg, heq⟩

/-- In all events, each heading is reported where it opens, and nothing else is. Its text has the words that its line
breaks separate, read as blanks, if and only if they are parted at every line break anyway, and its slug is that of
these words, up to its number, if and only if the same holds of what comes into a slug. -/
theorem headings_words_iff (es : List Event) :
    (∀ h ∈ headings es, ∃ inner, Encloses es h.index h.level inner) ∧
    ∀ index level inner, Encloses es index level inner →
      ∃ h ∈ headings es, h.index = index ∧ h.level = level ∧
        (words isBlank h.text = words isBlank (spacedText inner) ↔ BreaksPart (Parted isBlank) inner) ∧
        (∃ n, h.slug = numbered (slugify h.text) n) ∧
        (slugify h.text = slugify (spacedText inner) ↔ BreaksPart SlugParted inner) := by
  rw [headings_eq]
  constructor
  · intro h hh
    obtain ⟨inner, hinner, -⟩ := mem_foundFrom_iff.1 (of_mem_assign hh).1
    exact ⟨inner, hinner⟩
  · intro index level inner hinner
    obtain ⟨h, hh, hindex, hlevel, htext⟩ := exists_mem_assign .empty (mem_foundFrom_iff.2 ⟨inner, hinner, rfl⟩)
    refine ⟨h, hh, hindex, hlevel, ?_, (of_mem_assign hh).2, ?_⟩
    · rw [htext]
      exact words_headingText_iff inner
    · rw [htext]
      exact slugify_headingText_iff inner

/-! ### Headings on several lines -/

/-- What a heading has within it whose second line begins with a blank, and whose third one goes on after a dash. -/
def threeLines : List Event :=
  [.text "Über".toList, .softBreak, .opens .emphasis, .text " das".toList, .closes .emphasis, .hardBreak,
    .code " Café-".toList, .softBreak, .text "Bar".toList]

/-- The last line is one word with the one before, but not in the slug. -/
theorem headings_words_threeLines :
    let es := Event.opens (.heading 2 none) :: (threeLines ++ [.closes (.heading 2 none)])
    Encloses es 0 2 threeLines ∧ headings es = [⟨0, 2, "Über das Café-Bar".toList, "über-das-café-bar".toList, 0⟩] ∧
      ¬ BreaksPart (Parted isBlank) threeLines ∧ BreaksPart SlugParted threeLines := by
  intro es
  have hinner : Encloses es 0 2 threeLines := ⟨⟨[], [], none, 2, none, rfl, rfl⟩, by decide⟩
  have hheadings : headings es = [⟨0, 2, "Über das Café-Bar".toList, "über-das-café-bar".toList, 0⟩] := by
    decide
  obtain ⟨h, hh, -, -, hwords, -, hslug⟩ := (headings_words_iff es).2 0 2 threeLines hinner
  rw [hheadings, List.mem_singleton] at hh
  subst hh
  exact ⟨hinner, hheadings, hwords.not.1 (by decide), hslug.1 (by decide)⟩

/-- What a heading has within it that is written on two lines. -/
def twoLines : List Event := [.text ['A'], .softBreak, .text ['b']]

/-- A document whose heading has two words, one on each line. They are one word of its text and of its slug. -/
theorem headings_twoLines :
    let es := Event.opens (.heading 1 none) :: (twoLines ++ [.closes (.heading 1 none)])
    events "A\nb\n===".toList = es ∧ Encloses es 0 1 twoLines ∧
      headings es = [⟨0, 1, ['A', 'b'], ['a', 'b'], 0⟩] ∧
      words isBlank ['A', 'b'] = [['A', 'b']] ∧ words isBlank (spacedText twoLines) = [['A'], ['b']] ∧
      slugify (spacedText twoLines) = ['a', '-', 'b'] := by
  intro es
  have hevents : events "A\nb\n===".toList = es := by cbv
  have hinner : Encloses es 0 1 twoLines := ⟨⟨[], [], none, 1, none, rfl, rfl⟩, by decide⟩
  exact ⟨hevents, hinner, by decide, by decide, by decide, by decide⟩

end Pagewright.Markdown
