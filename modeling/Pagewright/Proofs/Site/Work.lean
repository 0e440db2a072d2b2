import Pagewright.Site.Basic

/-!
# Steps of work on a site

A run of work is a function of the site. These are its steps: what succeeds hands on its result and the
site. A property of the site that each step preserves is preserved by the whole (`Work.Preserves`), and steps whose
results do not depend on the site have one result together (`Work.Gives`).
-/

namespace Pagewright.Site.Work

variable {σ : Type} {α β : Type} {site site' : Site σ} {m : Work σ α} {k : α → Work σ β}

@[simp] theorem pure_apply (a : α) (site : Site σ) : (pure a : Work σ α) site = some (.ok a, site) :=
  rfl

@[simp] theorem watch_apply (f : Site σ → Option (Except TemplateError α)) (site : Site σ) :
    watch f site = (f site).map fun result => (result, site) := rfl

@[simp] theorem look_apply (f : Site σ → Except TemplateError α) (site : Site σ) :
    look f site = some (f site, site) := rfl

theorem bind_of_ok {a : α} (h : m site = some (.ok a, site')) : (m >>= k) site = k a site' := by
  change (m site).bind _ = _
  rw [h]
  rfl

theorem bind_of_error {err : TemplateError} (h : m site = some (.error err, site')) :
    (m >>= k) site = some (.error err, site') := by
  change (m site).bind _ = _
  rw [h]
  rfl

theorem bind_of_none (h : m site = none) : (m >>= k) site = none := by
  change (m site).bind _ = _
  rw [h]
  rfl

theorem write_apply [Storage σ] (p : Path) (t : Text) (site : Site σ) :
    write p t site =
      some ((Storage.write site.store p t).1.mapError .storage,
        { site with store := (Storage.write site.store p t).2 }) := by
  unfold write
  rw [bind_of_ok (show (get : Work σ (Site σ)) site = some (.ok site, site) from rfl)]
  cases h : Storage.write site.store p t with
  | mk result store => cases result <;> rfl

/-- Work that gives a result leaves a site behind. -/
theorem exists_of_toOption {a : α} (h : ((m site).bind fun run => run.1.toOption) = some a) :
    ∃ site', m site = some (.ok a, site') := by
  obtain ⟨⟨r, site'⟩, hrun, hr⟩ := Option.bind_eq_some_iff.1 h
  cases r with
  | error err => cases hr
  | ok b =>
    obtain rfl : b = a := Option.some.inj hr
    exact ⟨site', hrun⟩

/-! ## Properties that stay -/

/-- Work after which a property of the site still holds, however the work ends. -/
def Preserves (P : Site σ → Prop) (m : Work σ α) : Prop :=
  ∀ (site site' : Site σ) (result : Except TemplateError α), P site →
    m site = some (result, site') → P site'

namespace Preserves

variable {P : Site σ → Prop}

theorem pure (a : α) : Preserves P (pure a : Work σ α) := by
  intro site site' result h heq
  rw [pure_apply, Option.some.injEq, Prod.mk.injEq] at heq
  exact heq.2 ▸ h

theorem get : Preserves P (get : Work σ (Site σ)) := by
  intro site site' result h heq
  have hsite : site = site' := congrArg Prod.snd (Option.some.inj heq)
  exact hsite ▸ h

theorem watch (f : Site σ → Option (Except TemplateError α)) : Preserves P (Site.watch f) := by
  intro site site' result h heq
  obtain ⟨r, -, heq⟩ := Option.map_eq_some_iff.1 heq
  rw [Prod.mk.injEq] at heq
  exact heq.2 ▸ h

theorem look (f : Site σ → Except TemplateError α) : Preserves P (Site.look f) := watch _

theorem bind (hm : Preserves P m) (hk : ∀ a, Preserves P (k a)) : Preserves P (m >>= k) := by
  intro site site' result h heq
  obtain ⟨⟨r, site1⟩, hm1, heq⟩ := Option.bind_eq_some_iff.1 heq
  have h1 := hm site site1 r h hm1
  cases r with
  | error err =>
    have hsite : site1 = site' := congrArg Prod.snd (Option.some.inj heq)
    exact hsite ▸ h1
  | ok a => exact hk a site1 site' result h1 heq

theorem mapM {γ : Type} {f : γ → Work σ α} {l : List γ} (h : ∀ a ∈ l, Preserves P (f a)) :
    Preserves P (l.mapM f) := by
  induction l with
  | nil => exact pure []
  | cons a l ih =>
    rw [List.mapM_cons]
    exact bind (h a List.mem_cons_self) fun b =>
      bind (ih fun c hc => h c (List.mem_cons_of_mem a hc)) fun bs => pure (b :: bs)

end Preserves

/-! ## Results that do not depend on the site -/

/-- Work that gives the one result, on every site on which it succeeds. -/
def Gives (m : Work σ α) (a : α) : Prop := ∀ site site' b, m site = some (.ok b, site') → b = a

namespace Gives

theorem pure (a : α) : Gives (pure a : Work σ α) a := by
  intro site site' b heq
  rw [pure_apply, Option.some.injEq, Prod.mk.injEq, Except.ok.injEq] at heq
  exact heq.1.symm

theorem of_bind {b : β} (hk : ∀ a, Gives (k a) b) : Gives (m >>= k) b := by
  intro site site' c heq
  obtain ⟨⟨r, site1⟩, -, heq⟩ := Option.bind_eq_some_iff.1 heq
  cases r with
  | error err => cases heq
  | ok a => exact hk a site1 site' c heq

theorem bind {a : α} {b : β} (hm : Gives m a) (hk : Gives (k a) b) : Gives (m >>= k) b := by
  intro site site' c heq
  obtain ⟨⟨r, site1⟩, hm1, heq⟩ := Option.bind_eq_some_iff.1 heq
  cases r with
  | error err => cases heq
  | ok a' =>
    obtain rfl := hm site site1 a' hm1
    exact hk site1 site' c heq

theorem mapM {γ : Type} {f : γ → Work σ α} {g : γ → α} {l : List γ} (h : ∀ a ∈ l, Gives (f a) (g a)) :
    Gives (l.mapM f) (l.map g) := by
  induction l with
  | nil => exact pure []
  | cons a l ih =>
    rw [List.mapM_cons]
    exact bind (h a List.mem_cons_self)
      (bind (ih fun c hc => h c (List.mem_cons_of_mem a hc)) (pure (g a :: l.map g)))

end Gives

end Pagewright.Site.Work
