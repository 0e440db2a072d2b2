import Pagewright.Proofs.Content.Data
import Pagewright.Proofs.Site.Work
import Pagewright.Storage.Memory

/-!
# Where a document is put on its page

The element, the script and the rendered body of a document replace the first occurrences of their marks,
one after the other, and each of them is looked for in what the ones before have put in. They are put at
the page's own marks, whatever the body is, exactly if no other occurrence of a mark stands in front of the
page's own one: in the texts of the page, with the frontmatter filled in, or in the data of the document
(`Site.OwnMarksFirst`).
-/

namespace Pagewright.Site

open PagePart

variable {toc : List Markdown.TocEntry} {fields : Fields} {ps : List PagePart}

/-- The page with the element, the script and the body of a document at its own marks. -/
def placeOwn (toc : List Markdown.TocEntry) (frontmatter : Fields) (content : Text)
    (ps : List PagePart) : List PagePart :=
  place .content content (place .headEnd (scriptAtHeadEnd toc frontmatter)
    (place .element (staticElement toc frontmatter) ps))

/-- The page's own marks come first: in front of them neither its texts nor the data that is put there
before have an occurrence. -/
structure OwnMarksFirst (toc : List Markdown.TocEntry) (frontmatter : Fields)
    (ps : List PagePart) : Prop where
  texts : ∀ m, OwnFirst m ps
  headEnd_data : .mark .element ∈ front .headEnd ps →
    ∀ s ∈ dataStrings toc frontmatter, ¬ Mark.headEnd.text <:+: s
  content_data : .mark .element ∈ front .content ps ∨ .mark .headEnd ∈ front .content ps →
    ∀ s ∈ dataStrings toc frontmatter, ¬ Mark.content.text <:+: s

/-! ## The three replacements -/

/-- In front of a page's own mark for the end of the head, that mark is in a text or in the element. -/
private theorem ownFirst_headEnd_iff :
    OwnFirst .headEnd (place .element (staticElement toc fields) ps) ↔
      OwnFirst .headEnd ps ∧ (.mark .element ∈ front .headEnd ps →
        ∀ s ∈ dataStrings toc fields, ¬ Mark.headEnd.text <:+: s) := by
  rw [OwnFirst, front_place_of_ne (by decide),
    infix_written_place_iff (by decide) sealed_staticElement, infix_staticElement_iff]
  simp only [OwnFirst, not_or, not_and, not_exists]

/-- In front of a page's own mark for the body, that mark is in a text, in the element or in the script. -/
private theorem ownFirst_content_iff :
    OwnFirst .content (place .headEnd (scriptAtHeadEnd toc fields)
        (place .element (staticElement toc fields) ps)) ↔
      OwnFirst .content ps ∧
        (.mark .element ∈ front .content ps ∨ .mark .headEnd ∈ front .content ps →
          ∀ s ∈ dataStrings toc fields, ¬ Mark.content.text <:+: s) := by
  rw [OwnFirst, front_place_of_ne (by decide), front_place_of_ne (by decide),
    infix_written_place_iff (by decide) sealed_scriptAtHeadEnd, mark_mem_place_iff (by decide),
    infix_scriptAtHeadEnd_iff, infix_written_place_iff (by decide) sealed_staticElement,
    infix_staticElement_iff, or_assoc, ← or_and_right]
  simp only [OwnFirst, not_or, not_and, not_exists]

/-- The page's own marks come first if and only if they do at each of the three replacements. -/
theorem ownMarksFirst_iff :
    OwnMarksFirst toc fields ps ↔
      OwnFirst .element ps ∧ OwnFirst .headEnd (place .element (staticElement toc fields) ps) ∧
        OwnFirst .content (place .headEnd (scriptAtHeadEnd toc fields)
          (place .element (staticElement toc fields) ps)) := by
  rw [ownFirst_headEnd_iff, ownFirst_content_iff]
  constructor
  · exact fun h =>
      ⟨h.texts _, ⟨h.texts _, h.headEnd_data⟩, ⟨h.texts _, h.content_data⟩⟩
  · rintro ⟨helement, ⟨hhead, hheadData⟩, ⟨hcontent, hcontentData⟩⟩
    refine ⟨fun m => ?_, hheadData, hcontentData⟩
    cases m
    · exact helement
    · exact hhead
    · exact hcontent

instance (toc : List Markdown.TocEntry) (fields : Fields) (ps : List PagePart) :
    Decidable (OwnMarksFirst toc fields ps) :=
  decidable_of_iff _ ownMarksFirst_iff.symm

private theorem placeContent_eq (content page : Text) :
    placeContent toc fields content page =
      Text.replaceFirst Mark.content.text content
        (Text.replaceFirst Mark.headEnd.text (scriptAtHeadEnd toc fields)
          (Text.replaceFirst Mark.element.text (staticElement toc fields) page)) := rfl

/-- If the page's own marks come first, everything is put at them. -/
theorem placeContent_of_ownMarksFirst (h : OwnMarksFirst toc fields ps) (content : Text) :
    placeContent toc fields content (written ps) = written (placeOwn toc fields content ps) := by
  obtain ⟨helement, hhead, hcontent⟩ := ownMarksFirst_iff.1 h
  rw [placeContent_eq, placeOwn, replaceFirst_written helement, replaceFirst_written hhead,
    replaceFirst_written hcontent]

private theorem staticElement_eq_cons (toc : List Markdown.TocEntry) (fields : Fields) :
    ∃ w, staticElement toc fields = '<' :: 'd' :: w := by
  unfold staticElement
  exact ⟨_, rfl⟩

private theorem scriptAtHeadEnd_eq_cons (toc : List Markdown.TocEntry) (fields : Fields) :
    ∃ w, scriptAtHeadEnd toc fields = '<' :: 's' :: w := by
  unfold scriptAtHeadEnd headScript
  exact ⟨_, rfl⟩

/-- If the element is put at another occurrence of its mark than the page's own one, the script does not
make up for it. -/
private theorem ownFirst_element
    (h : Text.replaceFirst Mark.headEnd.text (scriptAtHeadEnd toc fields)
        (Text.replaceFirst Mark.element.text (staticElement toc fields) (written ps)) =
      written (place .headEnd (scriptAtHeadEnd toc fields)
        (place .element (staticElement toc fields) ps))) : OwnFirst .element ps := by
  by_contra hn
  obtain ⟨s, r, r', hreplaced, hplaced⟩ :=
    replaceFirst_written_of_not_ownFirst hn (staticElement toc fields)
  obtain ⟨w, hw⟩ := staticElement_eq_cons toc fields
  obtain ⟨w', hw'⟩ := scriptAtHeadEnd_eq_cons toc fields
  have hmark : Mark.element.text = '\x7b' :: "static_content_element\x7d".toList := by decide
  have hend : Mark.headEnd.text = '<' :: "/head>".toList := by decide
  -- the texts first differ where one has the element and the other one still has the mark
  have hown := replaced_place .headEnd (scriptAtHeadEnd toc fields)
    (place .element (staticElement toc fields) ps)
  have hfirst := replaced_replaceFirst .headEnd (scriptAtHeadEnd toc fields)
    (s ++ ('<' :: 'd' :: w ++ r))
  rw [← h, hplaced, hreplaced, hmark, hend, hw] at hown
  rw [hend] at hfirst
  refine Text.ne_of_replaced (by decide) (fun b b' => ?_) (by decide) (by decide) (by decide) ?_ ?_
    hfirst hown rfl
  · simp [hw']
  · simp
  · simp

/-- If everything is put at the page's own marks whatever the body is, then they come first. -/
theorem ownMarksFirst_of_placeContent
    (h : ∀ content, placeContent toc fields content (written ps) =
      written (placeOwn toc fields content ps)) : OwnMarksFirst toc fields ps := by
  simp only [placeContent_eq, placeOwn] at h
  -- a body that is the mark itself changes nothing, so the first two replacements agree
  have hscript : Text.replaceFirst Mark.headEnd.text (scriptAtHeadEnd toc fields)
      (Text.replaceFirst Mark.element.text (staticElement toc fields) (written ps)) =
        written (place .headEnd (scriptAtHeadEnd toc fields)
          (place .element (staticElement toc fields) ps)) :=
    (replaced_replaceFirst .content contentMark _).eq_self.symm.trans
      ((h contentMark).trans (written_place_self .content _))
  have helement := ownFirst_element hscript
  rw [replaceFirst_written helement] at hscript
  have hhead : OwnFirst .headEnd (place .element (staticElement toc fields) ps) := by
    by_contra hn
    obtain ⟨s, r, r', hreplaced, hplaced⟩ :=
      replaceFirst_written_of_not_ownFirst hn (scriptAtHeadEnd toc fields)
    -- one text has the script where the other one has the end of the head
    have heq := hreplaced.symm.trans (hscript.trans hplaced)
    obtain ⟨w, hw⟩ := scriptAtHeadEnd_eq_cons toc fields
    have hend : Mark.headEnd.text = '<' :: '/' :: "head>".toList := by decide
    rw [hw, hend] at heq
    simp at heq
  refine ownMarksFirst_iff.2 ⟨helement, hhead, ?_⟩
  by_contra hn
  -- a body that begins like no mark for it shows where it was put
  obtain ⟨s, r, r', hreplaced, hplaced⟩ := replaceFirst_written_of_not_ownFirst hn ['<']
  have hcontent := h ['<']
  rw [replaceFirst_written helement, replaceFirst_written hhead] at hcontent
  have heq := hreplaced.symm.trans (hcontent.trans hplaced)
  have hmark : Mark.content.text = '\x7b' :: "content\x7d".toList := by decide
  rw [hmark] at heq
  simp at heq

/-! ## Making a document -/

variable {σ : Type} [Storage σ] {site site' : Site σ} {p page : Path} {d : Document} {html : Text}

/-- The document of a content file is its page with everything placed, and with the partials of the result
filled in. -/
theorem processContent_eq (hdocument : site.document p = .ok d)
    (hpage : site.pageForContent p = .ok page)
    (hfile : processFile page (some d.attributes) site = some (.ok html, site')) :
    processContent p site =
      some (site'.expandIncludes (some d.attributes)
        (placeContent (Markdown.tocEntries (Text.trim d.body)) d.attributes
          (renderBody (Markdown.tocEntries (Text.trim d.body)) (Text.trim d.body))
          (fillFrontmatter d.attributes html)), site') := by
  have hdocumentStep : look (fun site => site.document p) site = some (.ok d, site) := by
    rw [Work.look_apply, hdocument]
  have hpageStep : look (fun site => site.pageForContent p) site = some (.ok page, site) := by
    rw [Work.look_apply, hpage]
  unfold processContent
  rw [Work.bind_of_ok hdocumentStep, Work.bind_of_ok hpageStep, Work.bind_of_ok hfile]
  rfl

/-- The element, the script and the rendered body of a document are put at the marks that its page has of
its own, whatever the body is, if and only if these marks come first. -/
theorem processContent_places_iff (hdocument : site.document p = .ok d)
    (hpage : site.pageForContent p = .ok page)
    (hfile : processFile page (some d.attributes) site = some (.ok html, site'))
    (hparts : Condition.resolveBlocks d.attributes "frontmatter".toList html = written ps)
    (hapart : Apart ps) :
    ((∀ content, placeContent (Markdown.tocEntries (Text.trim d.body)) d.attributes content
          (fillFrontmatter d.attributes html) =
        written (placeOwn (Markdown.tocEntries (Text.trim d.body)) d.attributes content
          (ps.map (fill d.attributes)))) ↔
      OwnMarksFirst (Markdown.tocEntries (Text.trim d.body)) d.attributes
        (ps.map (fill d.attributes))) ∧
    (OwnMarksFirst (Markdown.tocEntries (Text.trim d.body)) d.attributes
        (ps.map (fill d.attributes)) →
      processContent p site =
        some (site'.expandIncludes (some d.attributes)
          (written (placeOwn (Markdown.tocEntries (Text.trim d.body)) d.attributes
            (renderBody (Markdown.tocEntries (Text.trim d.body)) (Text.trim d.body))
            (ps.map (fill d.attributes)))), site')) := by
  have hfilled : fillFrontmatter d.attributes html = written (ps.map (fill d.attributes)) := by
    rw [fillFrontmatter, hparts, replaceFrontmatter_written hapart]
  rw [hfilled]
  refine ⟨⟨ownMarksFirst_of_placeContent, placeContent_of_ownMarksFirst⟩, fun h => ?_⟩
  rw [processContent_eq hdocument hpage hfile, hfilled, placeContent_of_ownMarksFirst h]

/-! ## Two documents -/

/-- A site with one page and one content file on it. -/
def contentSite (content : Text) : Site MemoryStore :=
  .ofStore (.ofList [(⟨"pages/a.html".toList⟩, "<head></head>\x7bcontent\x7d".toList),
    (⟨"content/a.md".toList⟩, content)]) default

/-- The content file of the site. -/
def contentPath : Path := ⟨"content/a.md".toList⟩

/-- The page of the site, in parts. -/
def contentParts : List PagePart := [.text "<head>".toList, .mark .headEnd, .mark .content]

theorem apart_contentParts : Apart contentParts := by
  refine apart_of_notMem fun t ht => ?_
  have h : t = "<head>".toList := by simpa [contentParts] using ht
  rw [h]
  decide

theorem processContent_of_plain_heading :
    (∀ content, placeContent (Markdown.tocEntries "# Hi".toList) [] content
          (fillFrontmatter [] "<head></head>\x7bcontent\x7d".toList) =
        written (placeOwn (Markdown.tocEntries "# Hi".toList) [] content contentParts)) ∧
      ∃ site', processContent contentPath (contentSite "# Hi".toList) =
        some (site'.expandIncludes (some [])
          (written (placeOwn (Markdown.tocEntries "# Hi".toList) []
            (renderBody (Markdown.tocEntries "# Hi".toList) "# Hi".toList) contentParts)), site') := by
  have hresult : (processFile ⟨"pages/a.html".toList⟩ (some []) (contentSite "# Hi".toList)).map
      Prod.fst = some (.ok "<head></head>\x7bcontent\x7d".toList) := by decide +kernel
  obtain ⟨⟨result, site'⟩, hfile, rfl⟩ := Option.map_eq_some_iff.1 hresult
  have hdata : ∀ s ∈ dataStrings (Markdown.tocEntries "# Hi".toList) [], ¬ Mark.content.text <:+: s := by
    decide +kernel
  have hfirst : OwnMarksFirst (Markdown.tocEntries "# Hi".toList) [] contentParts :=
    ⟨fun m => by cases m <;> decide, fun hm => absurd hm (by decide), fun _ => hdata⟩
  have h := processContent_places_iff (d := ⟨[], "# Hi".toList⟩) (p := contentPath)
    rfl (by decide +kernel) hfile (by decide +kernel) apart_contentParts
  have hbody : Text.trim "# Hi".toList = "# Hi".toList := by decide
  have hfilled : contentParts.map (fill []) = contentParts := by decide +kernel
  simp only [hbody, hfilled] at h
  exact ⟨h.1.2 hfirst, site', h.2 hfirst⟩

/-- A heading with the mark for the body gets the body, in the script; the page's own mark stays. -/
theorem processContent_of_mark_in_heading :
    (processContent contentPath (contentSite "# \x7bcontent\x7d".toList)).map Prod.fst =
        some (.ok ("<head><script>window.toc = JSON.parse('[\x7b\"content\":\"".toList ++
          "<h1 id=\"content\">\x7bcontent\x7d</h1>\n".toList ++
          "\",\"slug\":\"content\",\"lvl\":1,\"i\":0,\"seen\":0\x7d]'); ".toList ++
          "window.frontmatter=JSON.parse('\x7b\x7d');</script>\n</head>\x7bcontent\x7d".toList)) ∧
      written (placeOwn (Markdown.tocEntries "# \x7bcontent\x7d".toList) []
          (renderBody (Markdown.tocEntries "# \x7bcontent\x7d".toList) "# \x7bcontent\x7d".toList)
          contentParts) =
        "<head><script>window.toc = JSON.parse('[\x7b\"content\":\"".toList ++
          "\x7bcontent\x7d".toList ++
          "\",\"slug\":\"content\",\"lvl\":1,\"i\":0,\"seen\":0\x7d]'); ".toList ++
          "window.frontmatter=JSON.parse('\x7b\x7d');</script>\n</head>".toList ++
          "<h1 id=\"content\">\x7bcontent\x7d</h1>\n".toList :=
  ⟨by decide +kernel, by decide +kernel⟩

end Pagewright.Site
