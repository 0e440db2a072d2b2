import Pagewright.Proofs.Content.Marks

/-!
# The data that a page gets

The element with the data of a document and the script with it are written around the JSON texts of two
values. All that a document decides in them is in the strings of these values: the headings, with their
anchors, and the frontmatter (`Site.dataStrings`). A mark occurs in the element or in the script just where
it occurs in one of the strings.
-/

namespace Pagewright

open Json

variable {m : Mark} {toc : List Markdown.TocEntry} {fields : Fields}

theorem Mark.verbatim_text (m : Mark) : Verbatim m.text := by
  cases m <;> decide

theorem Mark.apostrophe_notMem (m : Mark) : '\'' ∉ m.text := fun h =>
  (m.verbatim_text.plain _ h).2.2 rfl

/-- A text without one of the characters of each mark has no marks. -/
theorem Mark.not_infix {t : Text} (hbrace : '\x7b' ∉ t) (hend : '/' ∉ t ∨ 'h' ∉ t) :
    ¬ m.text <:+: t := by
  cases m with
  | element => exact Text.not_infix_of_mem (c := '\x7b') (by decide) hbrace
  | content => exact Text.not_infix_of_mem (c := '\x7b') (by decide) hbrace
  | headEnd =>
    rcases hend with h | h
    · exact Text.not_infix_of_mem (c := '/') (by decide) h
    · exact Text.not_infix_of_mem (c := 'h') (by decide) h

namespace Site

/-- A mark occurs between the single quotes just where it occurs in a string of the value. -/
theorem infix_singleQuoted_iff (v : Json) :
    m.text <:+: singleQuoted v ↔ ∃ s ∈ v.strings, m.text <:+: s := by
  obtain ⟨x, ys, hm, -⟩ := PagePart.text_eq_cons m
  have hback : '\\' ∉ m.text := fun h => (m.verbatim_text.plain _ h).2.1 rfl
  have hquote := m.apostrophe_notMem
  rw [← m.verbatim_text.infix_compact_iff]
  unfold singleQuoted
  rw [Text.replaceAll_singleton, hm]
  rw [hm] at hback hquote
  refine Text.infix_flatMap_iff (fun c hc => if_neg (ne_of_mem_of_not_mem hc hquote)) fun c => ?_
  by_cases h : c = '\''
  · simp only [List.mem_cons, not_or] at hback hquote
    exact Or.inr ⟨'\\', ['\''], if_pos h, by simp [hback], by simpa using Ne.symm hquote.1⟩
  · exact Or.inl (if_neg h)

/-- The strings in the data of a document. -/
def dataStrings (toc : List Markdown.TocEntry) (frontmatter : Fields) : List Text :=
  (tocJson toc).strings ++ stringsOfFields frontmatter

/-- Two values between single quotes, with texts around them in which the mark does not occur. -/
private theorem infix_quoted_iff {a b c : Text} (ha : ¬ m.text <:+: a) (hb : ¬ m.text <:+: b)
    (hc : ¬ m.text <:+: c) :
    m.text <:+: a ++ '\'' :: (singleQuoted (tocJson toc) ++ '\'' :: (b ++ '\'' ::
        (singleQuoted (.object fields) ++ '\'' :: c))) ↔
      ∃ s ∈ dataStrings toc fields, m.text <:+: s := by
  have hseam : ∀ u v : Text, m.text <:+: u ++ '\'' :: v ↔ m.text <:+: u ∨ m.text <:+: v := by
    obtain ⟨x, ys, hm, -⟩ := PagePart.text_eq_cons m
    have hquote := m.apostrophe_notMem
    rw [hm] at hquote ⊢
    exact fun u v => Text.infix_append_cons_iff hquote
  rw [hseam, hseam, hseam, hseam, infix_singleQuoted_iff, infix_singleQuoted_iff]
  simp only [ha, hb, hc, false_or, or_false, dataStrings, List.mem_append, or_and_right, exists_or,
    strings]

/-- A mark occurs in the element just where it occurs in a string of the data. -/
theorem infix_staticElement_iff :
    m.text <:+: staticElement toc fields ↔ ∃ s ∈ dataStrings toc fields, m.text <:+: s := by
  have heq : staticElement toc fields =
      "<div id='static-content' style='display:none;' data-toc=".toList ++ '\'' ::
        (singleQuoted (tocJson toc) ++ '\'' :: (" data-frontmatter=".toList ++ '\'' ::
          (singleQuoted (.object fields) ++ '\'' :: "></div>".toList))) := by
    unfold staticElement
    simp
  rw [heq]
  exact infix_quoted_iff (Mark.not_infix (by decide) (Or.inl (by decide)))
    (Mark.not_infix (by decide) (Or.inl (by decide))) (Mark.not_infix (by decide) (Or.inr (by decide)))

/-- A mark occurs in the script just where it occurs in a string of the data. -/
theorem infix_headScript_iff :
    m.text <:+: headScript toc fields ↔ ∃ s ∈ dataStrings toc fields, m.text <:+: s := by
  have heq : headScript toc fields =
      "<script>window.toc = JSON.parse(".toList ++ '\'' ::
        (singleQuoted (tocJson toc) ++ '\'' :: ("); window.frontmatter=JSON.parse(".toList ++ '\'' ::
          (singleQuoted (.object fields) ++ '\'' :: ");</script>".toList))) := by
    unfold headScript
    simp
  rw [heq]
  exact infix_quoted_iff (Mark.not_infix (by decide) (Or.inl (by decide)))
    (Mark.not_infix (by decide) (Or.inl (by decide))) (Mark.not_infix (by decide) (Or.inr (by decide)))

/-- The script with the end of the head behind it. -/
def scriptAtHeadEnd (toc : List Markdown.TocEntry) (frontmatter : Fields) : Text :=
  headScript toc frontmatter ++ '\n' :: headEnd

theorem infix_scriptAtHeadEnd_iff :
    Mark.content.text <:+: scriptAtHeadEnd toc fields ↔
      ∃ s ∈ dataStrings toc fields, Mark.content.text <:+: s := by
  have hend : ¬ Mark.content.text <:+: headEnd :=
    Text.not_infix_of_mem (c := '\x7b') (by decide) (by decide)
  have hseam : Mark.content.text <:+: headScript toc fields ++ '\n' :: headEnd ↔
      Mark.content.text <:+: headScript toc fields ∨ Mark.content.text <:+: headEnd :=
    Text.infix_append_cons_iff (by decide)
  unfold scriptAtHeadEnd
  rw [hseam, infix_headScript_iff, or_iff_left hend]

theorem sealed_staticElement : PagePart.Sealed (staticElement toc fields) := by
  have heq : ∃ w, staticElement toc fields = '<' :: (w ++ ['>']) :=
    ⟨"div id='static-content' style='display:none;' data-toc='".toList ++
      (singleQuoted (tocJson toc) ++ ("' data-frontmatter='".toList ++
        (singleQuoted (.object fields) ++ "'></div".toList))), by unfold staticElement; simp⟩
  obtain ⟨w, hw⟩ := heq
  exact hw ▸ PagePart.sealed_angles w

theorem sealed_scriptAtHeadEnd : PagePart.Sealed (scriptAtHeadEnd toc fields) := by
  have heq : ∃ w, scriptAtHeadEnd toc fields = '<' :: (w ++ ['>']) :=
    ⟨"script>window.toc = JSON.parse('".toList ++
      (singleQuoted (tocJson toc) ++ ("'); window.frontmatter=JSON.parse('".toList ++
        (singleQuoted (.object fields) ++ "');</script>\n</head".toList))), by
      unfold scriptAtHeadEnd headScript headEnd; simp⟩
  obtain ⟨w, hw⟩ := heq
  exact hw ▸ PagePart.sealed_angles w

end Site

end Pagewright
