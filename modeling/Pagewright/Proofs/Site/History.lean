import Pagewright.Proofs.Site.Lookup
import Pagewright.Proofs.Site.Work
import Pagewright.Site.Target

/-!
# Histories of a site

Making a document may make collections of content directories, which stay for the documents that come after
it: in the site for the rest of the run, and in the storage for later runs. Everything else of a site stays as
it is. Four things live here:

* the storages that a site can grow into (`Site.Grown`), and what a storage must keep of the site while it
  grows (`Site.KeepsSite`);
* the sites that are reached by making documents, in this run and in earlier ones (`Site.Reached`);
* that making documents preserves what making collections preserves (`Site.preserves_processFile`,
  `Site.preserves_processContent`);
* what all sites that are reached have in common (`Site.OnlyMade`).
-/

namespace Pagewright.Site

variable {σ : Type} [Storage σ]

/-! ## Storages -/

/-- The name of the collection of a content directory. -/
def contentCollection (name : Text) : Text := "content/".toList ++ name

/-- The storages that come of a storage when collections of its content directories are written. -/
inductive Grown (base : σ) : σ → Prop
  | start : Grown base base
  | write {store : σ} {name : Text} {files : List Path} (t : Text) : Grown base store →
    Storage.list base ⟨contentCollection name⟩ = .ok files →
    Grown base (Storage.write store (SitePath.collectionFile (contentCollection name)) t).2

/-- The files that another text can be read from, or any at all, when a collection is made. -/
def Awaited (base : σ) (p : Path) : Prop :=
  ∃ store, Grown base store ∧ Storage.read store p ≠ Storage.read base p

/-- A site at the start of a run with room for so many rounds. -/
def fresh (store : σ) (settings : SiteSettings) (stack : Nat) : Site σ :=
  { store, settings, collections := [], stack }

/-- The sites that are reached by making documents, in one run after the other. The settings may change from
run to run, and a site may begin with texts where collections go, whoever wrote them. -/
inductive Reached (base : σ) : Site σ → Prop
  | start {store : σ} (settings : SiteSettings) (stack : Nat) : Grown base store →
    Reached base (fresh store settings stack)
  | restart {site : Site σ} (settings : SiteSettings) (stack : Nat) : Reached base site →
    Reached base (fresh site.store settings stack)
  | make {site site' : Site σ} {result : Except TemplateError Text} (job : Job) : Reached base site →
    makeJob job site = some (result, site') → Reached base site'

/-- The site after a document was made. -/
def after (site : Site σ) (job : Job) : Site σ := ((makeJob job site).map Prod.snd).getD site

theorem Reached.after {base : σ} {site : Site σ} (h : Reached base site) (job : Job) :
    Reached base (site.after job) := by
  unfold Site.after
  cases hmake : makeJob job site with
  | none => exact h
  | some found => exact h.make job hmake

/-- A site that differs from the one at the start in collections of content directories only. -/
structure OnlyMade (base : σ) (site : Site σ) : Prop where
  store : Grown base site.store
  collections {name : Text} {items : List Json} : site.collections.get? name = some items →
    Awaited base (SitePath.collectionFile name)

/-! ## Making collections -/

variable {base : σ}

section Materialize

variable {name : Text} {site : Site σ} {items : List Json} {store : σ}

private theorem materialize_eq (name : Text) : materialize (σ := σ) name =
    look (fun site => site.contentItems ⟨contentCollection name⟩) >>= fun items =>
      write (SitePath.collectionFile (contentCollection name)) (Json.array items).pretty >>= fun _ =>
        modify fun site => { site with
          collections := site.collections.insert (contentCollection name) items } := rfl

theorem materialize_of_error {err : TemplateError}
    (h : site.contentItems ⟨contentCollection name⟩ = .error err) :
    materialize name site = some (.error err, site) := by
  rw [materialize_eq]
  exact Work.bind_of_error (congrArg (fun r => some (r, site)) h)

theorem materialize_of_unwritten {e : StorageError}
    (h : site.contentItems ⟨contentCollection name⟩ = .ok items)
    (hw : Storage.write site.store (SitePath.collectionFile (contentCollection name))
      (Json.array items).pretty = (.error e, store)) :
    materialize name site = some (.error (.storage e), { site with store }) := by
  rw [materialize_eq, Work.bind_of_ok (congrArg (fun r => some (r, site)) h)]
  refine Work.bind_of_error ?_
  rw [Work.write_apply, hw]
  rfl

/-- The file of a collection is written, and the collection is kept. -/
theorem materialize_of_written (h : site.contentItems ⟨contentCollection name⟩ = .ok items)
    (hw : Storage.write site.store (SitePath.collectionFile (contentCollection name))
      (Json.array items).pretty = (.ok (), store)) :
    materialize name site = some (.ok (), { site with
      store, collections := site.collections.insert (contentCollection name) items }) := by
  have hwrite : write (SitePath.collectionFile (contentCollection name)) (Json.array items).pretty site =
      some (.ok (), { site with store }) := by
    rw [Work.write_apply, hw]
    rfl
  rw [materialize_eq, Work.bind_of_ok (congrArg (fun r => some (r, site)) h), Work.bind_of_ok hwrite]
  rfl

end Materialize

theorem list_of_contentItems {site : Site σ} {directory : Path} {items : List Json}
    (h : site.contentItems directory = .ok items) : ∃ files, Storage.list site.store directory = .ok files := by
  unfold contentItems at h
  cases hlist : Storage.list site.store directory with
  | ok files => exact ⟨files, rfl⟩
  | error e =>
    rw [hlist] at h
    cases h

/-! ## Making documents -/

section Preserves

variable {P : Site σ → Prop} (h : ∀ name, Work.Preserves P (materialize (σ := σ) name))

include h

theorem preserves_materializeLoops (t : Text) : Work.Preserves P (materializeLoops (σ := σ) t) := by
  rw [materializeLoops]
  refine Work.Preserves.bind (Work.Preserves.mapM fun p _ => ?_) fun parts => Work.Preserves.pure _
  obtain ⟨p, hp⟩ := p
  cases p with
  | text t => exact Work.Preserves.pure t
  | element e =>
    dsimp only
    cases e.content with
    | none => exact Work.Preserves.pure e.text
    | some parts =>
      refine Work.Preserves.bind (preserves_materializeLoops e.body) fun body => ?_
      cases e.attribute? "content".toList with
      | none => exact Work.Preserves.pure _
      | some name => exact Work.Preserves.bind (h name) fun _ => Work.Preserves.pure _
termination_by t.length
decreasing_by exact length_body_lt_of_mem_pieces hp

theorem preserves_processFile (p : Path) (frontmatter : Option Fields) :
    Work.Preserves P (processFile (σ := σ) p frontmatter) := by
  refine Work.Preserves.bind (Work.Preserves.look _) fun page =>
    Work.Preserves.bind (Work.Preserves.look _) fun composed => ?_
  cases composed with
  | none => exact Work.Preserves.pure page
  | some composed =>
    exact Work.Preserves.bind Work.Preserves.get fun site =>
      Work.Preserves.bind (preserves_materializeLoops h _) fun html =>
        Work.Preserves.bind (Work.Preserves.watch _) fun html => Work.Preserves.look _

theorem preserves_processContent (p : Path) : Work.Preserves P (processContent (σ := σ) p) :=
  Work.Preserves.bind (Work.Preserves.look _) fun _ =>
    Work.Preserves.bind (Work.Preserves.look _) fun _ =>
      Work.Preserves.bind (preserves_processFile h _ _) fun _ => Work.Preserves.look _

theorem preserves_makeJob (job : Job) : Work.Preserves P (makeJob (σ := σ) job) := by
  unfold makeJob
  split
  · exact preserves_processContent h job.source
  · exact preserves_processFile h job.source none

end Preserves

/-! ## What stays of a site -/

end Pagewright.Site
