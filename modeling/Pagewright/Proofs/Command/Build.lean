import Mathlib.Data.Finset.Card
import Pagewright.Command.Run
import Pagewright.Proofs.Site.Registry
import Pagewright.Proofs.Site.Route
import Pagewright.Proofs.Storage.Kept

/-!
# Documents of a build

The documents of a site are made one after the other, each at the site that those before have left, and each is
written. Three things live here:

* a build as a row of steps (`Command.Run`, `Command.exists_run_of_makeAll`);
* what is kept by the steps that follow: no collection goes where a document goes (`Command.keeps_makeJob`), so a
  document is there in the end unless another one is written over it (`Command.Run.find_of_last`);
* so each document of a build has a file of its own if and only if no two of them clash
  (`Command.build_keeps_documents_iff`).
-/

namespace Pagewright

/-! ## Where collections go -/

namespace Site

/-- A place that is not that of a collection. -/
def NoCollection (q : Place) : Prop := ∀ s ∈ q.getLast?, ¬ ".json".toList <:+ s

/-- The file of a collection, when it is not refused, has the extension of collections. -/
theorem ordinary_collectionFile {name : Text}
    (h : DirectoryStore.climbs (SitePath.collectionFile (contentCollection name)) = false) :
    (SitePath.collectionFile (contentCollection name)).Ordinary ∧
      ∃ s ∈ (SitePath.collectionFile (contentCollection name)).names.getLast?, ".json".toList <:+ s := by
  obtain ⟨before, last, -, hcomponents⟩ := exists_components name
  have hsegment : ∀ s : Text, Path.ofSegment s = .parent ∨ Path.ofSegment s = .name s := by
    intro s
    unfold Path.ofSegment
    split
    · exact Or.inl rfl
    · exact Or.inr rfl
  have hparent : ∀ c ∈ (SitePath.collectionFile (contentCollection name)).components, c ≠ .parent := by
    intro c hc hc'
    exact List.any_eq_false.1 h c hc (decide_eq_true hc')
  -- the last segment is no step upwards, or the file would be refused
  have hlast : Path.ofSegment (last ++ ".json".toList) = .name (last ++ ".json".toList) := by
    refine (hsegment _).resolve_left (hparent _ ?_)
    rw [hcomponents]
    simp
  refine ⟨⟨by simp [hcomponents], fun c hc => ?_⟩, last ++ ".json".toList, ?_, List.suffix_append _ _⟩
  · have hc' := hparent c hc
    rw [hcomponents, List.mem_cons, List.mem_append, List.mem_singleton] at hc
    rcases hc with rfl | hc | rfl
    · rfl
    · obtain ⟨s, -, rfl⟩ := List.mem_map.1 hc
      rw [(hsegment s).resolve_left hc']
      rfl
    · rw [hlast]
      rfl
  · rw [Path.names, hcomponents, hlast, ← List.cons_append, List.map_append, List.map_singleton, List.getLast?_concat]
    rfl

/-- Making a collection leaves all other files as they are. -/
theorem keeps_materialize (name : Text) (d : Disk) : Work.Preserves
    (fun site : Site DirectoryStore => Disk.Keeps NoCollection d site.store.disk) (materialize name) := by
  intro site site' result hkeeps heq
  cases hitems : site.contentItems ⟨contentCollection name⟩ with
  | error err =>
    rw [materialize_of_error hitems, Option.some.injEq, Prod.mk.injEq] at heq
    exact heq.2 ▸ hkeeps
  | ok items =>
    let p := SitePath.collectionFile (contentCollection name)
    let t := (Json.array items).pretty
    have hwrite : Disk.Keeps NoCollection site.store.disk (DirectoryStore.write site.store p t).2.disk := by
      rcases site.store.write_cases p t with ⟨err, disk, hw, hadded⟩ | ⟨made, disk, hclimbs, -, -, -⟩
      · rw [hw]
        exact hadded.keeps _
      · obtain ⟨hordinary, s, hs, hjson⟩ := ordinary_collectionFile hclimbs
        refine (site.store.keeps_write p t).mono fun q hq hplace => hq s ?_ hjson
        rw [hplace, Disk.placeOf_join hordinary, List.getLast?_append_of_ne_nil _ hordinary.names_ne_nil]
        exact hs
    cases hw : DirectoryStore.write site.store p t with
    | mk written store =>
      rw [hw] at hwrite
      cases written with
      | error e =>
        rw [materialize_of_unwritten hitems hw, Option.some.injEq, Prod.mk.injEq] at heq
        exact heq.2 ▸ hkeeps.trans hwrite
      | ok done =>
        rw [materialize_of_written hitems hw, Option.some.injEq, Prod.mk.injEq] at heq
        exact heq.2 ▸ hkeeps.trans hwrite

theorem keeps_makeJob {job : Job} {site made : Site DirectoryStore} {result : Except TemplateError Text}
    (h : makeJob job site = some (result, made)) : Disk.Keeps NoCollection site.store.disk made.store.disk :=
  preserves_makeJob (fun name => keeps_materialize name site.store.disk) job site made result (.refl _ _) h

end Site

namespace Command

open Site

variable {out : Path} {js rest : List Job} {job : Job} {site made onward site' : Site DirectoryStore}
  {target : DirectoryStore} {html message : Text} {ws before after : List Written} {w : Written}
  {fs : List (Path × Text)} {d : Disk}

/-! ## Steps of a build -/

/-- A document that was made and written. -/
structure Written where
  job : Job
  html : Text
deriving DecidableEq

/-- Documents are made and written one after the other, each at the site that those before have left: the ones that were
written, and those that failed, each with a message. -/
inductive Run (out : Path) : List Job → Site DirectoryStore → List Written → List (Path × Text) →
    Site DirectoryStore → Prop
  | nil (site : Site DirectoryStore) : Run out [] site [] [] site
  | written {job : Job} {rest : List Job} {site made site' : Site DirectoryStore} {html : Text}
    {target : DirectoryStore} {ws : List Written} {fs : List (Path × Text)} :
    makeJob job site = some (.ok html, made) →
    DirectoryStore.write ⟨out, made.store.disk⟩ job.target html = (.ok (), target) →
    Run out rest { made with store := { made.store with disk := target.disk } } ws fs site' →
    Run out (job :: rest) site (⟨job, html⟩ :: ws) fs site'
  | failed {job : Job} {rest : List Job} {site onward site' : Site DirectoryStore} {message : Text}
    {ws : List Written} {fs : List (Path × Text)} :
    makeAndWrite out job site = some (.error message, onward) → Run out rest onward ws fs site' →
    Run out (job :: rest) site ws ((job.source, message) :: fs) site'

/-- What one document comes to: it is not made, or not written, or written. -/
theorem makeAndWrite_cases {result : Except Text Unit} (h : makeAndWrite out job site = some (result, onward)) :
    (∃ message, result = .error message ∧ Disk.Keeps NoCollection site.store.disk onward.store.disk) ∨
      ∃ html made target, result = .ok () ∧ makeJob job site = some (.ok html, made) ∧
        DirectoryStore.write ⟨out, made.store.disk⟩ job.target html = (.ok (), target) ∧
        onward = { made with store := { made.store with disk := target.disk } } := by
  unfold makeAndWrite at h
  obtain ⟨⟨result', made⟩, hmake, h⟩ := Option.bind_eq_some_iff.1 h
  have hkeeps : Disk.Keeps NoCollection site.store.disk made.store.disk := keeps_makeJob hmake
  cases result' with
  | error e =>
    rw [Option.pure_def, Option.some.injEq, Prod.mk.injEq] at h
    obtain ⟨rfl, rfl⟩ := h
    exact Or.inl ⟨_, rfl, hkeeps⟩
  | ok html =>
    rw [Option.pure_def, Option.some.injEq, Prod.mk.injEq] at h
    obtain ⟨rfl, rfl⟩ := h
    cases hw : DirectoryStore.write ⟨out, made.store.disk⟩ job.target html with
    | mk written target =>
      cases written with
      | error e => exact Or.inl ⟨_, rfl, hkeeps.trans (DirectoryStore.keeps_of_unwritten hw _)⟩
      | ok done => exact Or.inr ⟨html, made, target, rfl, hmake, hw, rfl⟩

/-- A build is a row of steps. -/
theorem exists_run_of_makeAll (h : makeAll out js site = some (fs, site')) : ∃ ws, Run out js site ws fs site' := by
  induction js generalizing site fs site' with
  | nil =>
    rw [makeAll, Option.some.injEq, Prod.mk.injEq] at h
    obtain ⟨rfl, rfl⟩ := h
    exact ⟨[], .nil site⟩
  | cons job rest ih =>
    unfold makeAll at h
    obtain ⟨⟨result, onward⟩, hmake, hbehind⟩ := Option.bind_eq_some_iff.1 h
    obtain ⟨⟨failures, site₁⟩, hrest, hwhole⟩ := Option.bind_eq_some_iff.1 hbehind
    obtain ⟨ws, hrun⟩ := ih hrest
    rcases makeAndWrite_cases hmake with ⟨message, rfl, -⟩ | ⟨html, made, target, rfl, hmade, hwrite, rfl⟩
    · obtain ⟨rfl, rfl⟩ := Prod.mk.inj (Option.some.inj hwhole)
      exact ⟨ws, .failed hmake hrun⟩
    · obtain ⟨rfl, rfl⟩ := Prod.mk.inj (Option.some.inj hwhole)
      exact ⟨_, .written hmade hwrite hrun⟩

namespace Run

/-- Every document was written or failed. -/
theorem length_add (h : Run out js site ws fs site') : ws.length + fs.length = js.length := by
  induction h with
  | nil => rfl
  | written _ _ _ ih =>
    rw [List.length_cons, List.length_cons, ← ih]
    omega
  | failed _ _ ih =>
    rw [List.length_cons, List.length_cons, ← ih]
    omega

/-- The documents that were written are among those of the build, in their order. -/
theorem sublist (h : Run out js site ws fs site') : (ws.map (·.job)).Sublist js := by
  induction h with
  | nil => exact List.Sublist.slnil
  | written _ _ _ ih => exact ih.cons_cons _
  | failed _ _ ih => exact ih.cons _

/-! ## What is kept -/

/-- Files are kept where no collection and no document goes. -/
theorem keeps (h : Run out js site ws fs site') :
    Disk.Keeps (fun q => NoCollection q ∧ ∀ w ∈ ws, q ≠ site.store.disk.placeOf (out.join w.job.target))
      site.store.disk site'.store.disk := by
  induction h with
  | nil => exact .refl _ _
  | @written job rest site made site' html target ws fs hmade hwrite _ ih =>
    have hmake := keeps_makeJob hmade
    have hput := DirectoryStore.keeps_write ⟨out, made.store.disk⟩ job.target html
    rw [hwrite, hmake.placeOf_eq] at hput
    have hplace : ∀ p, target.disk.placeOf p = site.store.disk.placeOf p :=
      fun p => (hput.placeOf_eq p).trans (hmake.placeOf_eq p)
    refine (hmake.mono fun q hq => hq.1).trans ((hput.mono fun q hq => ?_).trans (ih.mono fun q hq => ?_))
    · have hne := hq.2 ⟨job, html⟩ List.mem_cons_self
      exact hne
    · refine ⟨hq.1, fun w hw => ?_⟩
      show q ≠ target.disk.placeOf _
      rw [hplace]
      exact hq.2 w (List.mem_cons_of_mem _ hw)
  | @failed job rest site onward site' message ws fs hmake _ ih =>
    have hkeeps : Disk.Keeps NoCollection site.store.disk onward.store.disk := by
      rcases makeAndWrite_cases hmake with ⟨_, -, hkeeps⟩ | ⟨_, _, _, hresult, -⟩
      · exact hkeeps
      · cases hresult
    refine (hkeeps.mono fun q hq => hq.1).trans (ih.mono fun q hq => ⟨hq.1, fun w hw => ?_⟩)
    rw [hkeeps.placeOf_eq]
    exact hq.2 w hw

/-- A document is there in the end unless another one is written over it. -/
theorem find_of_last (h : Run out js site (before ++ w :: after) fs site')
    (hplace : NoCollection (site.store.disk.placeOf (out.join w.job.target)))
    (hafter : ∀ v ∈ after, site.store.disk.placeOf (out.join w.job.target) ≠
      site.store.disk.placeOf (out.join v.job.target)) :
    DirectoryStore.climbs w.job.target = false ∧ site'.store.disk.find (out.join w.job.target) =
      .ok (site.store.disk.placeOf (out.join w.job.target), .file (some w.html)) := by
  -- the document comes in front of the run, or in the rest of it
  generalize hws : before ++ w :: after = ws at h
  induction h generalizing before with
  | nil => simp at hws
  | @written job rest site made site' html target ws fs hmade hwrite hrest ih =>
    have hmake := keeps_makeJob hmade
    have hput := DirectoryStore.keeps_write ⟨out, made.store.disk⟩ job.target html
    rw [hwrite] at hput
    have hplaceOf : ∀ p, target.disk.placeOf p = site.store.disk.placeOf p :=
      fun p => (hput.placeOf_eq p).trans (hmake.placeOf_eq p)
    cases before with
    | nil =>
      obtain ⟨rfl, rfl⟩ := List.cons.inj hws
      obtain ⟨hclimbs, hfind⟩ := DirectoryStore.find_of_write hwrite
      -- it is written in this step and kept by those that follow
      refine ⟨hclimbs, hrest.keeps.find ⟨hplace, fun v hv => ?_⟩ ?_⟩
      · show _ ≠ target.disk.placeOf _
        rw [hplaceOf]
        exact hafter v hv
      · rw [← hmake.placeOf_eq]
        exact hfind
    | cons u before =>
      obtain ⟨-, rfl⟩ := List.cons.inj hws
      have hnext := ih (by show NoCollection (target.disk.placeOf _); rwa [hplaceOf]) (fun v hv => by
        show target.disk.placeOf _ ≠ target.disk.placeOf _
        rw [hplaceOf, hplaceOf]
        exact hafter v hv) rfl
      exact hnext.imp_right fun hfind => hfind.trans (by rw [← hplaceOf])
  | @failed job rest site onward site' message ws fs hmake hrest ih =>
    have hkeeps : Disk.Keeps NoCollection site.store.disk onward.store.disk := by
      rcases makeAndWrite_cases hmake with ⟨_, -, hkeeps⟩ | ⟨_, _, _, hresult, -⟩
      · exact hkeeps
      · cases hresult
    have hnext := ih (by rwa [hkeeps.placeOf_eq]) (fun v hv => by
      rw [hkeeps.placeOf_eq, hkeeps.placeOf_eq]
      exact hafter v hv) hws
    exact hnext.imp_right fun hfind => hfind.trans (by rw [← hkeeps.placeOf_eq])

end Run

/-! ## Files of documents -/

variable {c : Config}

/-- Where the documents that were written go. -/
def places (c : Config) (d : Disk) (ws : List Written) : List Place :=
  ws.map fun w => d.placeOf (c.outputDir.join w.job.target)

/-- A document is the last one with its file, or there is a last one with the same file behind it. -/
theorem exists_last_clash (job : Job) (after : List Written) : (∀ v ∈ after, ¬ job.Clash v.job) ∨
    ∃ between u rest, after = between ++ u :: rest ∧ job.Clash u.job ∧ ∀ v ∈ rest, ¬ job.Clash v.job := by
  induction after with
  | nil => exact Or.inl (by simp)
  | cons v after ih =>
    rcases ih with hnone | ⟨between, u, rest, rfl, hclash, hnone⟩
    · by_cases hv : job.Clash v.job
      · exact Or.inr ⟨[], v, after, rfl, hv, hnone⟩
      · exact Or.inl (List.forall_mem_cons.2 ⟨hv, hnone⟩)
    · exact Or.inr ⟨v :: between, u, rest, rfl, hclash, hnone⟩

section Documents

variable (hd : d.WellFormed) (hjobs : jobs (siteOf c d).store = .ok js)
include hd hjobs

theorem placeOf_target (hjob : job ∈ js) (out : Path) :
    d.placeOf (out.join job.target) = d.placeOf out ++ (job.route ++ [job.fileName]) := by
  obtain ⟨front, stem, extension, hfile, hnamed⟩ := exists_named_of_mem_jobs hd hjobs hjob
  obtain ⟨htarget, hnames⟩ := hnamed.target_eq hfile
  rw [htarget, Disk.placeOf_join (Path.ordinary_ofNames (by simp) hnames), Path.names_ofNames hnames]

theorem noCollection_target (hjob : job ∈ js) (out : Path) : NoCollection (d.placeOf (out.join job.target)) := by
  obtain ⟨front, stem, extension, hfile, hnamed⟩ := exists_named_of_mem_jobs hd hjobs hjob
  rw [placeOf_target hd hjobs hjob, ← List.append_assoc]
  intro s hs
  rw [List.getLast?_concat] at hs
  obtain rfl := Option.some.inj hs
  exact hnamed.not_json_suffix hfile

theorem placeOf_target_eq_iff {a b : Job} (ha : a ∈ js) (hb : b ∈ js) (out : Path) :
    d.placeOf (out.join a.target) = d.placeOf (out.join b.target) ↔ a.Clash b := by
  rw [placeOf_target hd hjobs ha, placeOf_target hd hjobs hb, List.append_cancel_left_eq]
  constructor
  · intro h
    obtain ⟨hroute, hname⟩ := List.append_inj' h rfl
    exact ⟨hroute, List.singleton_inj.1 hname⟩
  · rintro ⟨hroute, hname⟩
    rw [hroute, hname]

theorem target_eq_of_clash {a b : Job} (ha : a ∈ js) (hb : b ∈ js) (h : a.Clash b) : a.target = b.target := by
  obtain ⟨front, stem, extension, hfile, hnamed⟩ := exists_named_of_mem_jobs hd hjobs ha
  obtain ⟨front', stem', extension', hfile', hnamed'⟩ := exists_named_of_mem_jobs hd hjobs hb
  rw [(hnamed.target_eq hfile).1, (hnamed'.target_eq hfile').1, h.1, h.2]

/-- There are as many files as documents if and only if no two documents clash. -/
theorem card_places_iff (hws : ∀ w ∈ ws, w.job ∈ js) :
    (places c d ws).toFinset.card = ws.length ↔ ws.Pairwise fun v w => ¬ v.job.Clash w.job := by
  have hlength : ws.length = Multiset.card (places c d ws : Multiset Place) := by
    rw [Multiset.coe_card, places, List.length_map]
  have hnodup : (places c d ws).toFinset.card = ws.length ↔ (places c d ws).Nodup := by
    rw [hlength]
    exact Multiset.toFinset_card_eq_card_iff_nodup
  rw [hnodup, places, List.Nodup, List.pairwise_map]
  exact List.Pairwise.iff_of_mem fun hv hw => not_congr (placeOf_target_eq_iff hd hjobs (hws _ hv) (hws _ hw) _)

/-- In the end, the file of a document holds it unless a document with the same file came later. -/
theorem Run.read_of_last (h : Run c.outputDir js (siteOf c d) (before ++ w :: after) fs site')
    (hafter : ∀ v ∈ after, ¬ w.job.Clash v.job) :
    DirectoryStore.read ⟨c.outputDir, site'.store.disk⟩ w.job.target = .ok w.html := by
  have hmem : ∀ v ∈ before ++ w :: after, v.job ∈ js :=
    fun v hv => h.sublist.subset (List.mem_map.2 ⟨v, hv, rfl⟩)
  have hw : w.job ∈ js := hmem w (by simp)
  obtain ⟨hclimbs, hfind⟩ := h.find_of_last (noCollection_target hd hjobs hw _) fun v hv heq =>
    hafter v hv ((placeOf_target_eq_iff hd hjobs hw (hmem v (by simp [hv])) _).1 heq)
  exact DirectoryStore.read_of_find hclimbs hfind

/-- All documents are there in the end if and only if those with the same file have the same text. -/
theorem Run.read_iff (h : Run c.outputDir js (siteOf c d) ws fs site') :
    (∀ w ∈ ws, DirectoryStore.read ⟨c.outputDir, site'.store.disk⟩ w.job.target = .ok w.html) ↔
      ws.Pairwise fun v w => v.job.Clash w.job → v.html = w.html := by
  have hmem : ∀ v ∈ ws, v.job ∈ js := fun v hv => h.sublist.subset (List.mem_map.2 ⟨v, hv, rfl⟩)
  constructor
  · intro hread
    refine List.pairwise_of_forall_mem_list fun v hv w hw hclash => ?_
    have hv' := hread v hv
    rw [target_eq_of_clash hd hjobs (hmem v hv) (hmem w hw) hclash, hread w hw] at hv'
    exact (Except.ok.inj hv').symm
  · intro hsame w hw
    obtain ⟨before, after, rfl⟩ := List.append_of_mem hw
    rcases exists_last_clash w.job after with hnone | ⟨between, u, rest, rfl, hclash, hnone⟩
    · exact h.read_of_last hd hjobs hnone
    · -- what is there is the last one of the documents with this file
      have hu : u.job ∈ js := hmem u (by simp)
      have hlast : DirectoryStore.read ⟨c.outputDir, site'.store.disk⟩ u.job.target = .ok u.html := by
        rw [← List.cons_append, ← List.append_assoc] at h
        refine h.read_of_last hd hjobs fun v hv huv => hnone v hv ⟨?_, ?_⟩
        · exact hclash.1.trans huv.1
        · exact hclash.2.trans huv.2
      have hhtml : w.html = u.html :=
        (List.pairwise_cons.1 (List.pairwise_append.1 hsame).2.1).1 u (by simp) hclash
      rw [target_eq_of_clash hd hjobs (hmem w hw) hu hclash, hhtml]
      exact hlast

end Documents

theorem exists_jobs (c : Config) (d : Disk) : ∃ js, jobs (siteOf c d).store = .ok js := by
  have hwalk : ∀ directory : Path, DirectoryStore.climbs directory = false →
      ∃ found, Storage.walk (siteOf c d).store directory = .ok found := by
    intro directory hclimbs
    show ∃ found, DirectoryStore.walk _ directory = .ok found
    rw [DirectoryStore.walk, DirectoryStore.locate_eq_ok_iff.2 ⟨hclimbs, rfl⟩]
    simp only [bind, Except.bind, pure, Except.pure]
    split <;> exact ⟨_, rfl⟩
  obtain ⟨pages, hpages⟩ := hwalk SitePath.pages (by decide)
  obtain ⟨contents, hcontents⟩ := hwalk SitePath.content (by decide)
  exact ⟨_, by rw [jobs, hpages, hcontents]; rfl⟩

/-- The documents of a site have targets of their own if and only if no two of them clash. In a build, what was written
is there in the end unless a document that clashes with it came later; so all documents are there if and only if those
that clash have the same text, and there are as many files as documents were written if and only if none of these
clash. -/
theorem build_keeps_documents_iff (c : Config) (d : Disk) (hd : d.WellFormed) :
    ∃ js, jobs (siteOf c d).store = .ok js ∧
      (js.Pairwise (fun a b => ¬ a.target.same b.target) ↔ js.Pairwise fun a b => ¬ a.Clash b) ∧
      ∀ fs site', makeAll c.outputDir js (siteOf c d) = some (fs, site') →
        ∃ ws, Run c.outputDir js (siteOf c d) ws fs site' ∧ ws.length = js.length - fs.length ∧
          (∀ before w after, ws = before ++ w :: after → (∀ v ∈ after, ¬ w.job.Clash v.job) →
            DirectoryStore.read ⟨c.outputDir, site'.store.disk⟩ w.job.target = .ok w.html) ∧
          ((∀ w ∈ ws, DirectoryStore.read ⟨c.outputDir, site'.store.disk⟩ w.job.target = .ok w.html) ↔
            ws.Pairwise fun v w => v.job.Clash w.job → v.html = w.html) ∧
          ((places c d ws).toFinset.card = ws.length ↔ ws.Pairwise fun v w => ¬ v.job.Clash w.job) := by
  obtain ⟨js, hjobs⟩ := exists_jobs c d
  refine ⟨js, hjobs, ?_, fun fs site' hmake => ?_⟩
  · exact List.Pairwise.iff_of_mem fun ha hb => not_congr (same_target_iff_clash hd hjobs ha hb)
  · obtain ⟨ws, hrun⟩ := exists_run_of_makeAll hmake
    have hmem : ∀ v ∈ ws, v.job ∈ js := fun v hv => hrun.sublist.subset (List.mem_map.2 ⟨v, hv, rfl⟩)
    refine ⟨ws, hrun, Nat.eq_sub_of_add_eq hrun.length_add, ?_, hrun.read_iff hd hjobs, card_places_iff hd hjobs hmem⟩
    rintro before w after rfl hafter
    exact hrun.read_of_last hd hjobs hafter

/-! ## Two sites -/

/-- A configuration for sites at the root of a disk. -/
def rootConfig : Config :=
  ⟨⟨"/".toList⟩, ⟨"/_site".toList⟩, ⟨false, "relative".toList, 32, "date".toList⟩, none⟩

/-- A site with a post and the page of its directory. -/
def blogDisk : Disk where
  entries := [(["pages".toList], .directory),
    (["pages".toList, "posts.html".toList], .file (some "<p>{content}</p>".toList)),
    (["content".toList], .directory), (["content".toList, "posts".toList], .directory),
    (["content".toList, "posts".toList, "hello.md".toList], .file (some "Hi".toList))]
  workingDirectory := []

def blogJobs : List Job :=
  [⟨⟨"pages/posts.html".toList⟩, ⟨"posts/index.html".toList⟩, false⟩,
    ⟨⟨"content/posts/hello.md".toList⟩, ⟨"posts/hello/index.html".toList⟩, true⟩]

/-- No document of the blog is lost. -/
theorem build_keeps_documents_blog : blogDisk.WellFormed ∧ blogJobs.Pairwise (fun a b => ¬ a.target.same b.target) ∧
    ∃ site' ws, makeAll rootConfig.outputDir blogJobs (siteOf rootConfig blogDisk) = some ([], site') ∧
      Run rootConfig.outputDir blogJobs (siteOf rootConfig blogDisk) ws [] site' ∧ ws.length = 2 ∧
      (∀ w ∈ ws, DirectoryStore.read ⟨rootConfig.outputDir, site'.store.disk⟩ w.job.target = .ok w.html) ∧
      (places rootConfig blogDisk ws).toFinset.card = 2 := by
  have hd : blogDisk.WellFormed := by decide
  obtain ⟨js, hjobs, htargets, hbuild⟩ := build_keeps_documents_iff rootConfig blogDisk hd
  obtain rfl : blogJobs = js := by
    have hblog : (jobs (siteOf rootConfig blogDisk).store).toOption = some blogJobs := by decide +kernel
    rw [hjobs] at hblog
    exact (Option.some.inj hblog).symm
  have hmake : (makeAll rootConfig.outputDir blogJobs (siteOf rootConfig blogDisk)).map Prod.fst = some [] := by
    decide +kernel
  obtain ⟨⟨fs, site'⟩, hmake, rfl⟩ := Option.map_eq_some_iff.1 hmake
  obtain ⟨ws, hrun, hlength, -, hread, hcard⟩ := hbuild _ site' hmake
  have hapart : blogJobs.Pairwise fun a b => ¬ a.Clash b := by decide
  have hws : ws.Pairwise fun v w => ¬ v.job.Clash w.job := List.pairwise_map.1 (hapart.sublist hrun.sublist)
  have htwo : ws.length = 2 := hlength
  have hall := hread.2 (hws.imp fun hclash h => absurd h hclash)
  exact ⟨hd, htargets.2 hapart, site', ws, hmake, hrun, htwo, hall, (hcard.2 hws).trans htwo⟩

/-- A site with a page of its own for a content file. -/
def aboutDisk : Disk where
  entries := [(["pages".toList], .directory),
    (["pages".toList, "about.html".toList], .file (some "<p>{content}</p>".toList)),
    (["content".toList], .directory), (["content".toList, "about.md".toList], .file (some "Hi".toList))]
  workingDirectory := []

/-- The page of a content file is a document, too, and the content is written over it: two documents are made, and one
is there in the end. -/
theorem build_overwrites_page :
    (jobs (siteOf rootConfig aboutDisk).store).toOption =
      some [⟨⟨"pages/about.html".toList⟩, ⟨"about/index.html".toList⟩, false⟩,
        ⟨⟨"content/about.md".toList⟩, ⟨"about/index.html".toList⟩, true⟩] ∧
    (buildSite rootConfig aboutDisk).map (fun o => (o.exitCode, o.stderr, (o.disk.filesBelow 9 ["_site".toList] ⟨[]⟩))) =
      some (0, "Site:   /\nOutput: /_site\nBuilt 2 of 2 documents to /_site\n".toList,
        [⟨"about/index.html".toList⟩]) ∧
    (buildSite rootConfig aboutDisk).map (fun o => (o.disk.readText ⟨"/_site/about/index.html".toList⟩).toOption) =
      some (some "<p><p>Hi</p>\n</p>".toList) := by
  refine ⟨?_, ?_, ?_⟩ <;> decide +kernel

end Command

end Pagewright
