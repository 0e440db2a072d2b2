import Pagewright.Proofs.Content.Placement
import Pagewright.Proofs.Markdown.LinkList
import Pagewright.Proofs.Text.Character

/-!
# The table of contents of a document

The headings of a body are collected twice: for its table of contents, and again when the body is rendered with that
table in it. Three things live here:

* a table of contents is a list of links, if the texts of its entries are fit for links (`Markdown.isLinkItem_line`,
  `Markdown.EndsParagraph.linkList_tocMarkdown`);
* between two blocks of a document, it neither brings headings nor takes any away, as the mark in its place does not
  (`Markdown.headingTexts_tocMarkdown`);
* so the condition under which the table of contents that a page gets and the headings on it match
  (`Site.processContent_contents_match_iff`).
-/

namespace Pagewright

namespace Markdown

open Outline Slugger

variable {o : Outline} {tail : List Line} {t : Text}

/-! ## Entries as items -/

/-- Where there was no line break, slugs bring none. -/
theorem unbroken_slugify (t : Text) : Unbroken (slugify t) := by
  -- a slug consists of letters and digits in lower case and of dashes, and a line break is neither
  have hfrom : ∀ d : Char, 0 < d.toNat → d.toNat < 0x61 → d ≠ '-' → Text.isAlphanumeric d = false →
      ∀ (b : Bool) (t : Text), d ∉ slugFrom b t := by
    intro d hpos hd hdash halnum b t
    induction t generalizing b with
    | nil => exact List.not_mem_nil
    | cons c r ih =>
      rw [slugFrom]
      split
      · next hc =>
        have hcd : c ≠ d := by
          rintro rfl
          rw [halnum] at hc
          cases hc
        exact List.mem_append.not.2 (not_or.2 ⟨Text.notMem_lower hpos hd hcd, ih false⟩)
      · split
        · exact List.mem_cons.not.2 (not_or.2 ⟨hdash, ih true⟩)
        · exact ih b
  have hdrop : ∀ u : Text, dropFinalDash u ⊆ u := by
    intro u
    unfold dropFinalDash
    split
    · exact List.dropLast_subset u
    · exact fun _ h => h
  exact ⟨fun h => hfrom '\n' (by decide) (by decide) (by decide) (by decide +kernel) _ _ (hdrop _ h),
    fun h => hfrom '\r' (by decide) (by decide) (by decide) (by decide +kernel) _ _ (hdrop _ h)⟩

theorem Unbroken.numbered {base : Text} (h : Unbroken base) (n : ℕ) : Unbroken (Slugger.numbered base n) := by
  unfold Slugger.numbered
  split
  · exact h
  · have hdigits : ∀ c ∈ Text.ofNat n, c.isDigit := fun c hc => Nat.isDigit_of_mem_toDigits (by decide) (by decide) hc
    refine h.append ⟨fun hc => ?_, fun hc => ?_⟩
    · exact absurd (hdigits '\n' (List.mem_of_ne_of_mem (by decide) hc)) (by decide)
    · exact absurd (hdigits '\r' (List.mem_of_ne_of_mem (by decide) hc)) (by decide)

theorem unbroken_slug_of_mem_assign {s : Slugger} {found : List (ℕ × ℕ × Text)} {h : Heading}
    (hh : h ∈ s.assign found) : Unbroken h.slug := by
  induction found generalizing s with
  | nil => cases hh
  | cons a rest ih =>
    rw [assign, List.mem_cons] at hh
    rcases hh with rfl | hh
    · obtain ⟨n, -, -, -, -, heq⟩ := s.exists_unique_eq a.2.2
      dsimp only
      rw [heq]
      exact (unbroken_slugify a.2.2).numbered n
    · exact ih hh

theorem unbroken_slug {e : TocEntry} (he : e ∈ tocEntries t) : Unbroken e.slug := by
  obtain ⟨i, hi⟩ := List.mem_iff_getElem?.1 he
  obtain ⟨h, hh, rfl⟩ := getElem?_entriesFor hi
  have hmem := List.mem_of_getElem? hh
  rw [headings_eq] at hmem
  exact unbroken_slug_of_mem_assign hmem

/-- A text that can be the text of a link at the start of a line: it stays on the line, and no label ends in it that the
line would define. -/
structure FitForLink (t : Text) : Prop where
  unbroken : Unbroken t
  undefined : ¬ "]:".toList <:+: t
  unescaped : t.getLast? ≠ some '\\'

instance (t : Text) : Decidable (FitForLink t) :=
  decidable_of_iff (Unbroken t ∧ ¬ "]:".toList <:+: t ∧ t.getLast? ≠ some '\\')
    ⟨fun ⟨h, h', h''⟩ => ⟨h, h', h''⟩, fun ⟨h, h', h''⟩ => ⟨h, h', h''⟩⟩

variable {e : TocEntry} {entries : List TocEntry} {post : Text}

theorem unbroken_line (h : FitForLink e.content) (hslug : Unbroken e.slug) (least : ℕ) : Unbroken (e.line least) := by
  have hspaces : Unbroken (List.replicate (2 * (e.level - least)) ' ') :=
    ⟨by simp [List.mem_replicate], by simp [List.mem_replicate]⟩
  have hopen : Unbroken "- [".toList := by decide
  have hmiddle : Unbroken "](#".toList := by decide
  have hclose : Unbroken [')'] := by decide
  exact ((((hspaces.append hopen).append h.unbroken).append hmiddle).append hslug).append hclose

theorem isLinkItem_line (h : FitForLink e.content) (least : ℕ) : IsLinkItem (e.line least) := by
  refine ⟨2 * (e.level - least), '[' :: (e.content ++ ']' :: ("(#".toList ++ e.slug ++ [')'])), ?_,
    e.content, _, rfl, h.undefined, h.unescaped, by simp⟩
  simp [TocEntry.line]

/-! ## The mark in a paragraph of its own -/

/-- Behind a text, a paragraph ends: its line does, and if something follows, then a blank line first, and what follows
begins at the margin and is no item of a list. -/
structure EndsParagraph (post : Text) (tail : List Line) : Prop where
  lines_eq : (post = [] ∧ tail = []) ∨ ∃ l blanks, lines post = l :: (blanks ++ tail) ∧ l.text = [] ∧
    (∀ u ∈ blanks, IsBlankLine u.text) ∧ (blanks = [] → tail = [])
  flush : Flush tail

theorem EndsParagraph.linkList (h : EndsParagraph post tail) : LinkList tail (lines post) := by
  rcases h.lines_eq with ⟨rfl, rfl⟩ | ⟨l, blanks, hlines, hl, hblanks, -⟩
  · exact .done
  · rw [hlines]
    refine .blank ?_ (.of_blanks hblanks)
    rw [hl]
    simp [IsBlankLine]

/-- The line of a text that stands in front. -/
theorem EndsParagraph.exists_line (h : EndsParagraph post tail) {w : Text} (hw : w ≠ []) :
    ∃ l rest, w.foldr prependChar (lines post) = l :: rest ∧ l.text = w ∧ LinkList tail rest ∧
      (rest = tail → tail = []) := by
  rcases h.lines_eq with ⟨rfl, rfl⟩ | ⟨l, blanks, hlines, hl, hblanks, htail⟩
  · exact ⟨⟨w, []⟩, [], foldr_prependChar_nil hw, rfl, .done, fun _ => rfl⟩
  · refine ⟨{ l with text := w ++ l.text }, blanks ++ tail, ?_, ?_, .of_blanks hblanks, fun heq => ?_⟩
    · rw [hlines, foldr_prependChar_cons]
    · rw [hl, List.append_nil]
    · exact htail (List.append_left_eq_self.1 heq)

/-- The lines of a table of contents and what stands behind it. -/
theorem EndsParagraph.linkList_tocMarkdown (h : EndsParagraph post tail) (hfit : ∀ e ∈ entries, FitForLink e.content)
    (hslugs : ∀ e ∈ entries, Unbroken e.slug) : LinkList tail (lines (tocMarkdown entries ++ post)) := by
  have hjoin : ∀ least, LinkList tail (lines (Text.join ['\n'] (entries.map (TocEntry.line least)) ++ post)) := by
    intro least
    have hunbroken : ∀ w ∈ entries.map (TocEntry.line least), Unbroken w :=
      List.forall_mem_map.2 fun e he => unbroken_line (hfit e he) (hslugs e he) least
    have hitem : ∀ w ∈ entries.map (TocEntry.line least), IsLinkItem w :=
      List.forall_mem_map.2 fun e he => isLinkItem_line (hfit e he) least
    generalize entries.map (TocEntry.line least) = ws at hunbroken hitem
    -- the text behind goes on with the last line, so that one is special
    cases ws using List.reverseRecOn with
    | nil => exact h.linkList
    | append_singleton ws w =>
      rw [List.forall_mem_append, List.forall_mem_singleton] at hunbroken hitem
      obtain ⟨k, link, hw, -⟩ := hitem.2
      have hne : w ≠ [] := by
        rw [hw]
        simp
      obtain ⟨l, rest, hlast, rfl, hrest, htail⟩ := h.exists_line hne
      rw [lines_join_append hunbroken.1 _ hunbroken.2, hlast]
      exact LinkList.of_items hitem.1 (.item hitem.2 htail hrest) (Nat.lt_succ_of_le hrest.length_le)
  exact hjoin _

/-- A text behind which the reader is between two blocks of a document, whatever follows: its last line is complete, and
nothing but lists are open, which a line at the margin ends. -/
structure Settled (pre : Text) (o : Outline) : Prop where
  endsLine : EndsLine pre
  nested : Nested false o.frames
  emptyItem : o.emptyItem = false
  reaches : ∀ rest, Reaches start (lines pre ++ rest) o rest

theorem Settled.listing {pre : Text} (h : Settled pre o) :
    Listing o.definitions (fun s => o.headingTexts s) false o :=
  ⟨h.nested, fun _ => rfl, rfl, h.emptyItem⟩

/-- The headings of a document are those so far, where nothing but lists are open, and those of the rest. -/
theorem headingTexts_of_reaches {definitions : List (Text × Target)} {texts : Surroundings → List Text}
    (h : Listing definitions texts false o) (hflush : Flush tail) (hreaches : Reaches start (lines t) o tail) :
    headingTexts (events t) =
      let rest := ((startWith definitions).finish tail).popTo 0
      texts ⟨false, rest.definitions⟩ ++ Block.headingTexts ⟨false, rest.definitions⟩ rest.blocks.reverse := by
  obtain ⟨before, htexts, hblocks, hdefinitions⟩ := h.exists_finish_eq hflush
  have hevents : headingTexts (events t) = Block.headingTexts ⟨false, ((o.finish tail).popTo 0).definitions⟩
      ((o.finish tail).popTo 0).blocks.reverse := by
    rw [← hreaches.finish_eq]
    rfl
  dsimp only
  rw [hevents, hblocks, hdefinitions, List.reverse_append, Block.headingTexts_append, htexts]

/-- Between two blocks, a table of contents leaves the texts of the headings as they were with the link in its place. -/
theorem headingTexts_tocMarkdown {pre link : Text} (hpre : Settled pre o) (hpost : EndsParagraph post tail)
    (hlink : OpensLink link) (hunbroken : Unbroken link) (hfit : ∀ e ∈ entries, FitForLink e.content)
    (hslugs : ∀ e ∈ entries, Unbroken e.slug) :
    headingTexts (events (pre ++ (tocMarkdown entries ++ post))) = headingTexts (events (pre ++ (link ++ post))) := by
  -- both ways, the reader gets to the rest with nothing but lists open and no heading more
  have hlisted : ∃ o', Listing o.definitions (fun s => o.headingTexts s) false o' ∧
      Reaches start (lines (pre ++ (tocMarkdown entries ++ post))) o' tail := by
    obtain ⟨o', ho', hreaches⟩ := hpre.listing.exists_reaches (hpost.linkList_tocMarkdown hfit hslugs) hpost.flush
    exact ⟨o', ho', by rw [lines_append hpre.endsLine]; exact (hpre.reaches _).trans hreaches⟩
  have hmarked : ∃ o', Listing o.definitions (fun s => o.headingTexts s) false o' ∧
      Reaches start (lines (pre ++ (link ++ post))) o' tail := by
    have hne : link ≠ [] := by
      obtain ⟨label, behind, rfl, -⟩ := hlink
      exact List.cons_ne_nil _ _
    obtain ⟨l, rest, hline, rfl, hrest, htail⟩ := hpost.exists_line hne
    obtain ⟨hnext, hleft⟩ := hpre.listing.read_link hlink hrest htail
    obtain ⟨o', ho', hreaches⟩ := hnext.exists_reaches hleft hpost.flush
    refine ⟨o', ho', ?_⟩
    rw [lines_append hpre.endsLine, lines_unbroken_append hunbroken, hline]
    exact (hpre.reaches _).trans (.step hreaches)
  obtain ⟨o', ho', hreaches⟩ := hlisted
  obtain ⟨o'', ho'', hreaches'⟩ := hmarked
  exact (headingTexts_of_reaches ho' hpost.flush hreaches).trans
    (headingTexts_of_reaches ho'' hpost.flush hreaches').symm

end Markdown

namespace Site

open Markdown

variable {body : Text}

/-! ## The body of a document -/

/-- A body with its table of contents in the place of the first mark for it. -/
def withContents (body : Text) : Text := Text.replaceFirst tocMark (tocMarkdown (tocEntries body)) body

/-- The events of a body as it is shown on a page. -/
def shownEvents (body : Text) : List Event := named (events (withContents body))

/-- Do the headings on the page have, in order, the slugs that the table of contents has? -/
def ContentsMatch (body : Text) : Prop :=
  headingIds (shownEvents body) = (tocEntries body).map fun e => some e.slug

instance (body : Text) : Decidable (ContentsMatch body) := inferInstanceAs (Decidable (_ = _))

/-- The headings on the page have the slugs of the body with its table of contents in it. -/
theorem contentsMatch_iff :
    ContentsMatch body ↔ (tocEntries (withContents body)).map (·.slug) = (tocEntries body).map (·.slug) := by
  have hids : headingIds (shownEvents body) = (tocEntries (withContents body)).map fun e => some e.slug :=
    (flatHeadings_events (withContents body)).leadsTo.ids
  have hsome : ∀ entries : List TocEntry, (entries.map fun e => some e.slug) = (entries.map (·.slug)).map some :=
    fun entries => (List.map_map).symm
  rw [ContentsMatch, hids, hsome, hsome, List.map_inj_right fun _ _ h => Option.some.inj h]

theorem contentsMatch_of_headingTexts
    (h : headingTexts (events (withContents body)) = headingTexts (events body)) : ContentsMatch body := by
  refine contentsMatch_iff.2 ?_
  rw [tocEntries_eq, tocEntries_eq, map_slug_entriesFor, map_slug_entriesFor]
  exact map_slug_headings_congr h

theorem opensLink_tocMark : OpensLink tocMark :=
  ⟨"toc".toList, [], rfl, by decide, by decide, by decide⟩

theorem contentsMatch_of_settled {pre post : Text} {o : Outline} {tail : List Line}
    (hbody : body = pre ++ tocMark ++ post) (hmark : ¬ tocMark <:+: pre) (hpre : Settled pre o)
    (hpost : EndsParagraph post tail) (hfit : ∀ e ∈ tocEntries body, FitForLink e.content) : ContentsMatch body := by
  refine contentsMatch_of_headingTexts ?_
  have hreplaced : withContents body = pre ++ (tocMarkdown (tocEntries body) ++ post) := by
    rw [← List.append_assoc, withContents, hbody]
    exact Text.replaceFirst_append (by decide) hmark
  have hmarked : body = pre ++ (tocMark ++ post) := hbody.trans (List.append_assoc _ _ _)
  rw [hreplaced]
  conv_rhs => rw [hmarked]
  exact headingTexts_tocMarkdown hpre hpost opensLink_tocMark (by decide) hfit fun e he => unbroken_slug he

variable {σ : Type} [Storage σ] {site site' : Site σ} {p page : Path} {d : Document} {html : Text}

/-- The table of contents of a document and the headings in its HTML match if and only if the headings of the body are
called the same with the list in it. So they do where there is no mark for it, and where the mark is a paragraph of its
own between two blocks of the document, as long as the texts of the headings are fit for links. -/
theorem processContent_contents_match_iff (hdocument : site.document p = .ok d)
    (hpage : site.pageForContent p = .ok page)
    (hfile : processFile page (some d.attributes) site = some (.ok html, site')) :
    let body := Text.trim d.body
    processContent p site =
      some (site'.expandIncludes (some d.attributes)
        (placeContent (tocEntries body) d.attributes (writeHtml (shownEvents body))
          (fillFrontmatter d.attributes html)), site') ∧
    (ContentsMatch body ↔ (tocEntries (withContents body)).map (·.slug) = (tocEntries body).map (·.slug)) ∧
    (¬ tocMark <:+: body → ContentsMatch body) ∧
    ∀ (pre post : Text) (o : Outline) (tail : List Line), body = pre ++ tocMark ++ post → ¬ tocMark <:+: pre →
      Settled pre o → EndsParagraph post tail → (∀ e ∈ tocEntries body, FitForLink e.content) →
        ContentsMatch body := by
  refine ⟨processContent_eq hdocument hpage hfile, contentsMatch_iff, fun hmark => ?_, ?_⟩
  · refine contentsMatch_iff.2 ?_
    rw [withContents, Text.replaceFirst_of_not_infix hmark]
  · exact fun pre post o tail => contentsMatch_of_settled

/-! ## Two documents -/

/-- A body with the mark between its title and its first part. -/
def partsBody : Text := "# Hello\n\n[toc]\n\n## Part\n\nText.".toList

theorem settled_hello : Settled "# Hello\n\n".toList
    ⟨[], [.heading 1 [⟨"Hello".toList, []⟩]], true, false, []⟩ where
  endsLine := by simp [EndsLine]
  nested := .nil
  emptyItem := rfl
  reaches rest := .step (.step (.refl _ rest))

theorem endsParagraph_parts : EndsParagraph "\n\n## Part\n\nText.".toList (lines "## Part\n\nText.".toList) where
  lines_eq := Or.inr ⟨⟨[], ['\n']⟩, [⟨[], ['\n']⟩], rfl, rfl, by simp [IsBlankLine], by simp⟩
  flush := by
    intro l hl
    obtain rfl : l = ⟨"## Part".toList, ['\n']⟩ := (Option.some.inj hl).symm
    exact ⟨'#', "# Part".toList, rfl, rfl, by decide⟩

theorem processContent_contents_match_parts :
    ∃ site', processContent contentPath (contentSite partsBody) =
        some (site'.expandIncludes (some [])
          (placeContent (tocEntries partsBody) [] (writeHtml (shownEvents partsBody))
            (fillFrontmatter [] "<head></head>\x7bcontent\x7d".toList)), site') ∧ ContentsMatch partsBody := by
  have hresult : (processFile ⟨"pages/a.html".toList⟩ (some []) (contentSite partsBody)).map Prod.fst =
      some (.ok "<head></head>\x7bcontent\x7d".toList) := by decide +kernel
  obtain ⟨⟨result, site'⟩, hfile, rfl⟩ := Option.map_eq_some_iff.1 hresult
  have h := processContent_contents_match_iff (d := ⟨[], partsBody⟩) (p := contentPath) rfl (by decide +kernel) hfile
  have hbody : Text.trim partsBody = partsBody := by decide +kernel
  have hfit : ∀ e ∈ tocEntries partsBody, FitForLink e.content := by decide +kernel
  dsimp only at h
  rw [hbody] at h
  exact ⟨site', h.1, h.2.2.2 _ _ _ _ rfl (by decide) settled_hello endsParagraph_parts hfit⟩

/-- Where the mark is part of a heading, the heading is called by the first line of the table of contents, too. -/
theorem processContent_of_mark_in_title :
    (processContent contentPath (contentSite "# A [toc]".toList)).map Prod.fst =
        some (.ok ("<head><script>window.toc = JSON.parse('[\x7b\"content\":\"A [toc]\"".toList ++
          ",\"slug\":\"a-toc\",\"lvl\":1,\"i\":0,\"seen\":0\x7d]'); ".toList ++
          "window.frontmatter=JSON.parse('\x7b\x7d');</script>\n</head>".toList ++
          "<h1 id=\"a-a-toc\">A - <a href=\"#a-toc\">A [toc]</a></h1>\n".toList)) ∧
      (tocEntries "# A [toc]".toList).map (·.slug) = ["a-toc".toList] ∧
      headingIds (shownEvents "# A [toc]".toList) = [some "a-a-toc".toList] ∧
      ¬ ContentsMatch "# A [toc]".toList := by
  refine ⟨by decide +kernel, by decide +kernel, by decide +kernel, by decide +kernel⟩

end Site

end Pagewright
