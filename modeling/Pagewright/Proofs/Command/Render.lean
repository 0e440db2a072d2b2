import Pagewright.Proofs.Command.Build

/-!
# One document and all documents

A document can be made on its own or in a build. Which kind a file is of is decided by its extension in the first case
and by its directory in the second one, where the case of letters does not count. Both are the same work when the
extension is written in small letters (`Command.jobFor?_source`), and then they give the same text; the first one writes
to no directory that could be in the way (`Command.render_agrees_iff`).
-/

namespace Pagewright.Command

open Site

variable {c : Config} {d : Disk} {js : List Job} {job : Job} {site site' : Site DirectoryStore} {o : Outcome}
  {front : List Text} {stem extension html : Text}

/-! ## One document -/

/-- Is the extension of a document written in small letters? -/
def HasSmallExtension (job : Job) : Prop :=
  job.source.extension? = some (if job.isContent then "md".toList else "html".toList)

instance (job : Job) : Decidable (HasSmallExtension job) := inferInstanceAs (Decidable (_ = _))

/-- The file of a document is made as in a build, or refused. -/
theorem jobFor?_source (hfile : NamesFile front stem extension) (hnamed : job.Named front stem extension) :
    jobFor? job.source = if HasSmallExtension job then some (makeJob job) else none := by
  cases hnamed with
  | page hjob hsame =>
    have hall : ∀ u ∈ "pages".toList :: front ++ [stem ++ '.' :: extension], Path.IsName u :=
      hfile.isName_below (by decide)
    have hextension : job.source.extension? = some extension := by
      rw [hjob, pageJob, ← List.cons_append, Path.extension?_ofNames hall, hfile.splitName_eq]
    have hpage : job.isContent = false := by rw [hjob, pageJob]
    -- it is that of a page when the case of letters does not count, so it is not that of a content
    have hmd : extension ≠ "md".toList := by
      rintro rfl
      exact absurd hsame (by decide)
    have hmake : makeJob (σ := DirectoryStore) job = processFile job.source none := by
      rw [makeJob, hpage]
      rfl
    have hsmall : HasSmallExtension job ↔ extension = "html".toList := by
      rw [HasSmallExtension, hextension, hpage, Option.some.injEq]
      rfl
    rw [jobFor?, hextension, hmake]
    simp only [hsmall, hmd, if_false]
  | content hjob hsame =>
    have hall : ∀ u ∈ "content".toList :: front ++ [stem ++ '.' :: extension], Path.IsName u :=
      hfile.isName_below (by decide)
    have hextension : job.source.extension? = some extension := by
      rw [hjob, contentJob, ← List.cons_append, Path.extension?_ofNames hall, hfile.splitName_eq]
    have hcontent : job.isContent = true := by rw [hjob, contentJob]
    have hhtml : extension ≠ "html".toList := by
      rintro rfl
      exact absurd hsame (by decide)
    have hmake : makeJob (σ := DirectoryStore) job = processContent job.source := by
      rw [makeJob, hcontent]
      rfl
    have hsmall : HasSmallExtension job ↔ extension = "md".toList := by
      rw [HasSmallExtension, hextension, hcontent, Option.some.injEq]
      rfl
    rw [jobFor?, hextension, hmake]
    simp only [hsmall, hhtml, if_false]

/-- A document is made on its own when its extension is written in small letters and it can be made. -/
theorem renderFile_eq_some_iff (hfile : NamesFile front stem extension) (hnamed : job.Named front stem extension) :
    (renderFile c job.source none d = some o ∧ o.exitCode = 0) ↔ HasSmallExtension job ∧
      ∃ html made, makeJob job (siteOf c d) = some (.ok html, made) ∧ o = ⟨0, html, [], made.store.disk⟩ := by
  rw [renderFile, jobFor?_source hfile hnamed]
  by_cases hsmall : HasSmallExtension job
  · rw [if_pos hsmall]
    show ((makeJob job (siteOf c d)).bind _ = some o ∧ o.exitCode = 0) ↔ _
    cases hmake : makeJob job (siteOf c d) with
    | none =>
      refine iff_of_false (fun h => by cases h.1) ?_
      rintro ⟨-, html, made, hmade, -⟩
      cases hmade
    | some made =>
      obtain ⟨result, made⟩ := made
      cases result with
      | error e =>
        refine iff_of_false ?_ ?_
        · rintro ⟨ho, hcode⟩
          obtain rfl := Option.some.inj ho
          cases hcode
        · rintro ⟨-, html, made', hmade, -⟩
          cases (Prod.mk.inj (Option.some.inj hmade)).1
      | ok html =>
        constructor
        · rintro ⟨ho, -⟩
          exact ⟨hsmall, html, made, rfl, (Option.some.inj ho).symm⟩
        · rintro ⟨-, html', made', hmade, rfl⟩
          obtain ⟨hhtml, rfl⟩ := Prod.mk.inj (Option.some.inj hmade)
          obtain rfl := Except.ok.inj hhtml
          exact ⟨rfl, rfl⟩
  · rw [if_neg hsmall]
    refine iff_of_false ?_ fun h => hsmall h.1
    rintro ⟨ho, hcode⟩
    obtain rfl := Option.some.inj ho
    cases hcode

/-! ## The same document in a build -/

/-- A build of one document succeeds when the document can be made and written. -/
theorem makeAll_singleton_iff {out : Path} : makeAll out [job] site = some ([], site') ↔
    ∃ html made target, makeJob job site = some (.ok html, made) ∧
      DirectoryStore.write ⟨out, made.store.disk⟩ job.target html = (.ok (), target) ∧
      site' = { made with store := { made.store with disk := target.disk } } := by
  constructor
  · intro h
    unfold makeAll at h
    obtain ⟨⟨result, onward⟩, hmake, hbehind⟩ := Option.bind_eq_some_iff.1 h
    rcases makeAndWrite_cases hmake with ⟨message, rfl, -⟩ | ⟨html, made, target, rfl, hmade, hwrite, rfl⟩
    · cases (Prod.mk.inj (Option.some.inj hbehind)).1
    · exact ⟨html, made, target, hmade, hwrite, (Prod.mk.inj (Option.some.inj hbehind)).2.symm⟩
  · rintro ⟨html, made, target, hmade, hwrite, rfl⟩
    have hstep : makeAndWrite out job site =
        some (.ok (), { made with store := { made.store with disk := target.disk } }) := by
      unfold makeAndWrite
      refine Option.bind_eq_some_iff.2 ⟨_, hmade, ?_⟩
      dsimp only
      rw [hwrite]
      rfl
    rw [makeAll, hstep]
    rfl

/-- When both ways succeed, the text is the same. -/
theorem read_target_eq (hfile : NamesFile front stem extension) (hnamed : job.Named front stem extension)
    (hrender : renderFile c job.source none d = some o) (hcode : o.exitCode = 0)
    (hbuild : makeAll c.outputDir [job] (siteOf c d) = some ([], site')) :
    DirectoryStore.read ⟨c.outputDir, site'.store.disk⟩ job.target = .ok o.stdout := by
  obtain ⟨-, html, made, hmade, rfl⟩ := (renderFile_eq_some_iff hfile hnamed).1 ⟨hrender, hcode⟩
  obtain ⟨html', made', target, hmade', hwrite, rfl⟩ := makeAll_singleton_iff.1 hbuild
  -- the document is made from the same site both times
  obtain ⟨hhtml, rfl⟩ := Prod.mk.inj (Option.some.inj (hmade.symm.trans hmade'))
  obtain rfl := Except.ok.inj hhtml
  have hroot : target.root = c.outputDir := by
    have hkept := DirectoryStore.root_write ⟨c.outputDir, made.store.disk⟩ job.target html
    rwa [hwrite] at hkept
  have hread := DirectoryStore.read_of_write hwrite
  rw [← hroot]
  exact hread

/-- A document of a site is made on its own just if it is made in a build of its own, if and only if, when it can be
made, its extension is written in small letters just if it can be written to its target. When both succeed, the text is
the same. -/
theorem render_agrees_iff (c : Config) (d : Disk) (hd : d.WellFormed) :
    ∃ js, jobs (siteOf c d).store = .ok js ∧ ∀ job ∈ js,
      (((∃ o, renderFile c job.source none d = some o ∧ o.exitCode = 0) ↔
          ∃ site', makeAll c.outputDir [job] (siteOf c d) = some ([], site')) ↔
        ∀ html made, makeJob job (siteOf c d) = some (.ok html, made) →
          (HasSmallExtension job ↔
            (DirectoryStore.write ⟨c.outputDir, made.store.disk⟩ job.target html).1 = .ok ())) ∧
      ∀ o site', renderFile c job.source none d = some o → o.exitCode = 0 →
        makeAll c.outputDir [job] (siteOf c d) = some ([], site') →
          DirectoryStore.read ⟨c.outputDir, site'.store.disk⟩ job.target = .ok o.stdout := by
  obtain ⟨js, hjobs⟩ := exists_jobs c d
  refine ⟨js, hjobs, fun job hjob => ?_⟩
  obtain ⟨front, stem, extension, hfile, hnamed⟩ := exists_named_of_mem_jobs hd hjobs hjob
  refine ⟨⟨fun h html made hmade => ⟨fun hsmall => ?_, fun hwritten => ?_⟩, fun h => ⟨?_, ?_⟩⟩, fun o site' =>
    read_target_eq hfile hnamed⟩
  · obtain ⟨site', hbuild⟩ := h.1 ⟨_, (renderFile_eq_some_iff hfile hnamed).2 ⟨hsmall, html, made, hmade, rfl⟩⟩
    obtain ⟨html', made', target, hmade', hwrite, -⟩ := makeAll_singleton_iff.1 hbuild
    obtain ⟨hhtml, rfl⟩ := Prod.mk.inj (Option.some.inj (hmade.symm.trans hmade'))
    obtain rfl := Except.ok.inj hhtml
    rw [hwrite]
  · have hbuild := makeAll_singleton_iff.2 ⟨html, made, _, hmade, Prod.ext hwritten rfl, rfl⟩
    obtain ⟨o, ho⟩ := h.2 ⟨_, hbuild⟩
    exact ((renderFile_eq_some_iff hfile hnamed).1 ho).1
  · rintro ⟨o, ho⟩
    obtain ⟨hsmall, html, made, hmade, -⟩ := (renderFile_eq_some_iff hfile hnamed).1 ho
    exact ⟨_, makeAll_singleton_iff.2 ⟨html, made, _, hmade, Prod.ext ((h html made hmade).1 hsmall) rfl, rfl⟩⟩
  · rintro ⟨site', hbuild⟩
    obtain ⟨html, made, target, hmade, hwrite, -⟩ := makeAll_singleton_iff.1 hbuild
    have hsmall := (h html made hmade).2 (by rw [hwrite])
    exact ⟨_, (renderFile_eq_some_iff hfile hnamed).2 ⟨hsmall, html, made, hmade, rfl⟩⟩

/-- The page of the posts of a blog is made alike in both ways. -/
theorem render_agrees_blog : blogDisk.WellFormed ∧
    ∃ o site', renderFile rootConfig ⟨"pages/posts.html".toList⟩ none blogDisk = some o ∧ o.exitCode = 0 ∧
      makeAll rootConfig.outputDir [⟨⟨"pages/posts.html".toList⟩, ⟨"posts/index.html".toList⟩, false⟩]
        (siteOf rootConfig blogDisk) = some ([], site') ∧
      DirectoryStore.read ⟨rootConfig.outputDir, site'.store.disk⟩ ⟨"posts/index.html".toList⟩ = .ok o.stdout := by
  have hd : blogDisk.WellFormed := by decide
  obtain ⟨js, hjobs, hagrees⟩ := render_agrees_iff rootConfig blogDisk hd
  have hblog : (jobs (siteOf rootConfig blogDisk).store).toOption = some blogJobs := by decide +kernel
  have hmem : ⟨⟨"pages/posts.html".toList⟩, ⟨"posts/index.html".toList⟩, false⟩ ∈ js := by
    rw [hjobs] at hblog
    rw [Option.some.inj hblog]
    exact List.mem_cons_self
  obtain ⟨-, htext⟩ := hagrees _ hmem
  have hrender : (renderFile rootConfig ⟨"pages/posts.html".toList⟩ none blogDisk).map (·.exitCode) = some 0 := by
    decide +kernel
  have hbuild : (makeAll rootConfig.outputDir [⟨⟨"pages/posts.html".toList⟩, ⟨"posts/index.html".toList⟩, false⟩]
      (siteOf rootConfig blogDisk)).map Prod.fst = some [] := by decide +kernel
  obtain ⟨o, ho, hcode⟩ := Option.map_eq_some_iff.1 hrender
  obtain ⟨⟨fs, site'⟩, hmake, rfl⟩ := Option.map_eq_some_iff.1 hbuild
  exact ⟨hd, o, site', ho, hcode, hmake, htext o site' ho hcode hmake⟩

/-- A site with a page whose extension is written in large letters. -/
def largeDisk : Disk where
  entries := [(["pages".toList], .directory), (["pages".toList, "a.HTML".toList], .file (some "<p>x</p>".toList))]
  workingDirectory := []

/-- Such a page is made in a build and refused on its own. -/
theorem render_refuses_large_extension :
    (jobs (siteOf rootConfig largeDisk).store).toOption =
      some [⟨⟨"pages/a.HTML".toList⟩, ⟨"a/index.html".toList⟩, false⟩] ∧
    (makeAll rootConfig.outputDir [⟨⟨"pages/a.HTML".toList⟩, ⟨"a/index.html".toList⟩, false⟩]
        (siteOf rootConfig largeDisk)).map (fun r =>
          (r.1, (r.2.store.disk.readText ⟨"/_site/a/index.html".toList⟩).toOption)) =
      some ([], some "<p>x</p>".toList) ∧
    (renderFile rootConfig ⟨"pages/a.HTML".toList⟩ none largeDisk).map (fun o => (o.exitCode, o.stdout, o.stderr)) =
      some (1, [], "Error: Cannot render pages/a.HTML: expected an .html page or .md content file\n".toList) := by
  refine ⟨?_, ?_, ?_⟩ <;> decide +kernel

end Pagewright.Command
