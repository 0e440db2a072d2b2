import Mathlib.Logic.Relation
import Pagewright.Proofs.Include.Expansion
import Pagewright.Storage.Memory

/-!
# Partials that include partials

A partial is expanded with the includes in it, and those with theirs. When partials have nothing to be filled in,
what comes of a text is a matter of the graph of the includes alone. Three things live here:

* fragments, which are texts with includes that close themselves (`Fragment`), and the graph that partials of this
  kind make (`Partials.Includes`, `Partials.Reaches`, `Partials.IsChain`);
* the text that is left when every include is replaced (`Partials.Unfolds`);
* when the includes of a fragment can be expanded, and what comes out (`Site.expandIncludes_fragment`): the depth
  to which includes may be nested is the greatest length of a chain.
-/

namespace Pagewright

/-- A text with includes that close themselves: a text, or a text, the tag of an include with its source, and the
rest. -/
inductive Fragment
  | text (t : Text)
  | tag (t source : Text) (rest : Fragment)

namespace Fragment

variable {f : Fragment} {t source : Text}

/-- The tag of an include, behind its `<`. -/
def tagText (source : Text) : Text := "include src=\"".toList ++ (source ++ "\"/>".toList)

/-- A fragment as it is written. -/
def write : Fragment → Text
  | text t => t
  | tag t source rest => t ++ ('<' :: tagText source ++ rest.write)

/-- The sources of the includes. -/
def sources : Fragment → List Text
  | text _ => []
  | tag _ source rest => source :: rest.sources

/-- The texts are chunks, so all tags are those of the includes, and the sources can stand in quotes. -/
def Proper : Fragment → Prop
  | text t => Element.IsChunk "include".toList t
  | tag t source rest => Element.IsChunk "include".toList t ∧ '"' ∉ source ∧ rest.Proper

instance decidableProper : (f : Fragment) → Decidable f.Proper
  | text _ => inferInstanceAs (Decidable (Element.IsChunk _ _))
  | tag _ _ rest =>
    have := decidableProper rest
    inferInstanceAs (Decidable (_ ∧ _ ∧ _))

/-- The element that is read from the tag of an include. -/
def element (source : Text) : Element where
  opening := '<' :: tagText source
  attributes := [("src".toList, source)]
  content := none

/-- There is no include in a chunk at the end. -/
theorem find?_text (h : Element.IsChunk "include".toList t) : Element.find? "include".toList t = none := by
  have hskips := h.skipsBefore (by decide) Element.atTag_nil
  have hnil : Element.find? "include".toList [] = none := Element.find?_eq_none_of_notMem (by simp)
  have hfind := hskips.find?_append
  rwa [List.append_nil, hnil] at hfind

/-- The first include is the first tag. -/
theorem find?_tag {rest : Fragment} (h : (tag t source rest).Proper) :
    Element.find? "include".toList (tag t source rest).write = some (t, element source, rest.write) := by
  obtain ⟨ht, hsource, -⟩ := h
  have hsrc : OpenTag.IsName "src".toList := ⟨by decide +kernel, 's', "rc".toList, by decide⟩
  let behind : Text := ' ' :: ("src".toList ++ "=\"".toList ++ source ++ '"' :: '/' :: '>' :: rest.write)
  have htail : tagText source ++ rest.write = "include".toList ++ behind := by
    have hfirst : "include src=\"".toList = "include".toList ++ ' ' :: ("src".toList ++ "=\"".toList) := by decide
    have hlast : "\"/>".toList ++ rest.write = '"' :: '/' :: '>' :: rest.write := rfl
    unfold tagText behind
    rw [hfirst, ← hlast]
    simp only [List.append_assoc, List.cons_append]
  have hopening : Element.afterOpening? "include".toList (tagText source ++ rest.write) = some behind := by
    rw [htail]
    rfl
  have hparse : OpenTag.parse? behind = some (⟨[("src".toList, source)], true⟩, rest.write) := by
    rw [OpenTag.parse?, OpenTag.parseFrom_blank (by decide), OpenTag.parseFrom_attribute hsrc hsource,
      OpenTag.parseFrom_selfClosing]
    rfl
  have hskips := ht.skipsBefore (by decide) (Element.atTag_append (tagText source) rest.write)
  rw [write, hskips.find?_append, Element.find?_selfClosing ⟨behind, hopening, hparse⟩]
  simp [Element.prepend, element]

end Fragment

/-! ## The graph of the includes -/

/-- Partials by their sources. -/
abbrev Partials := Text → Option Fragment

namespace Partials

variable {parts : Partials} {f g rest : Fragment} {p q t out : Text} {ps : List Text} {n : ℕ}

/-- The sources in the partial of a source. -/
def sources (parts : Partials) (p : Text) : List Text :=
  match parts p with
  | some g => g.sources
  | none => []

/-- The partial of one source includes that of another one. -/
def Includes (parts : Partials) (p q : Text) : Prop := q ∈ parts.sources p

/-- A source is reached from a fragment by one include or several. -/
def Reaches (parts : Partials) (f : Fragment) (p : Text) : Prop :=
  ∃ q ∈ f.sources, Relation.ReflTransGen parts.Includes q p

/-- A chain of includes that begins with one of the given sources. -/
def IsChain (parts : Partials) : List Text → List Text → Prop
  | _, [] => True
  | qs, p :: ps => p ∈ qs ∧ parts.IsChain (parts.sources p) ps

/-- A text is a fragment with every include replaced by what its partial unfolds to. -/
inductive Unfolds (parts : Partials) : Fragment → Text → Prop
  | text (t : Text) : Unfolds parts (.text t) t
  | tag {t p inner out : Text} {g rest : Fragment} (hp : parts p = some g) (hinner : Unfolds parts g inner)
      (hrest : Unfolds parts rest out) : Unfolds parts (.tag t p rest) (t ++ (inner ++ out))

theorem Unfolds.unique (h : parts.Unfolds f t) (h' : parts.Unfolds f out) : t = out := by
  induction h generalizing out with
  | text t => cases h' with | text => rfl
  | tag hp _ _ ihinner ihrest =>
    cases h' with
    | tag hp' hinner hrest =>
      obtain rfl := Option.some.inj (hp.symm.trans hp')
      rw [ihinner hinner, ihrest hrest]

theorem sources_of_eq_some (h : parts p = some g) : parts.sources p = g.sources := by
  rw [sources, h]

/-- What is reached is the source of a tag, or it is reached from the partial of one. -/
theorem reaches_iff : parts.Reaches f p ↔ ∃ q ∈ f.sources, p = q ∨ ∃ g, parts q = some g ∧ parts.Reaches g p := by
  constructor
  · rintro ⟨q, hq, hpath⟩
    refine ⟨q, hq, ?_⟩
    rcases hpath.cases_head with rfl | ⟨r, hr, hpath⟩
    · exact .inl rfl
    · rw [Includes, sources] at hr
      split at hr
      · next g hg => exact .inr ⟨g, hg, r, hr, hpath⟩
      · simp at hr
  · rintro ⟨q, hq, rfl | ⟨g, hg, r, hr, hpath⟩⟩
    · exact ⟨p, hq, .refl⟩
    · refine ⟨q, hq, .head ?_ hpath⟩
      rw [Includes, sources_of_eq_some hg]
      exact hr

theorem Reaches.of_rest (h : parts.Reaches rest p) : parts.Reaches (.tag t q rest) p := by
  obtain ⟨r, hr, hpath⟩ := h
  exact ⟨r, List.mem_cons_of_mem q hr, hpath⟩

theorem Reaches.of_mem (h : p ∈ f.sources) : parts.Reaches f p := ⟨p, h, .refl⟩

theorem Reaches.trans (h : p ∈ f.sources) (hg : parts p = some g) (hq : parts.Reaches g q) : parts.Reaches f q :=
  reaches_iff.2 ⟨p, h, .inr ⟨g, hg, hq⟩⟩

/-- All that a fragment reaches exists when the partials of its tags do, with all that these reach. -/
theorem forall_reaches_iff :
    (∀ p, parts.Reaches f p → (parts p).isSome) ↔
      ∀ p ∈ f.sources, ∃ g, parts p = some g ∧ ∀ q, parts.Reaches g q → (parts q).isSome := by
  constructor
  · intro h p hp
    obtain ⟨g, hg⟩ := Option.isSome_iff_exists.1 (h p (.of_mem hp))
    exact ⟨g, hg, fun q hq => h q (hq.trans hp hg)⟩
  · intro h p hp
    obtain ⟨q, hq, hreach⟩ := reaches_iff.1 hp
    obtain ⟨g, hg, hall⟩ := h q hq
    rcases hreach with rfl | ⟨g', hg', hreach⟩
    · rw [hg]
      rfl
    · obtain rfl := Option.some.inj (hg.symm.trans hg')
      exact hall p hreach

/-- Sources that have those of their partials among them are all that is reached. -/
theorem Reaches.mem {known : List Text} (h : parts.Reaches f p) (hf : ∀ q ∈ f.sources, q ∈ known)
    (hknown : ∀ q ∈ known, ∀ r ∈ parts.sources q, r ∈ known) : p ∈ known := by
  obtain ⟨q, hq, hpath⟩ := h
  induction hpath with
  | refl => exact hf q hq
  | tail _ hstep ih => exact hknown _ ih _ hstep

/-- A chain goes on at the front along a path of includes. -/
theorem IsChain.of_reflTransGen (h : parts.IsChain (parts.sources p) ps)
    (hpath : Relation.ReflTransGen parts.Includes q p) :
    ∃ qs, parts.IsChain (parts.sources q) qs ∧ ps.length ≤ qs.length := by
  induction hpath using Relation.ReflTransGen.head_induction_on with
  | refl => exact ⟨ps, h, le_rfl⟩
  | head hstep _ ih =>
    obtain ⟨qs, hqs, hlen⟩ := ih
    refine ⟨_ :: qs, ⟨hstep, hqs⟩, ?_⟩
    rw [List.length_cons]
    omega

/-- Around a cycle there are chains of every length. -/
theorem exists_isChain_of_cycle (h : Relation.TransGen parts.Includes p p) (n : ℕ) :
    ∃ ps, parts.IsChain (parts.sources p) ps ∧ n ≤ ps.length := by
  induction n with
  | zero => exact ⟨[], trivial, Nat.zero_le _⟩
  | succ n ih =>
    obtain ⟨ps, hps, hlen⟩ := ih
    obtain ⟨q, hq, hpath⟩ := Relation.TransGen.head'_iff.1 h
    obtain ⟨qs, hqs, hlonger⟩ := hps.of_reflTransGen hpath
    refine ⟨q :: qs, ⟨hq, hqs⟩, ?_⟩
    rw [List.length_cons]
    omega

/-- There are only empty chains when there is nothing to begin with. -/
theorem forall_isChain_zero_iff {qs : List Text} : (∀ ps, parts.IsChain qs ps → ps.length ≤ 0) ↔ qs = [] := by
  constructor
  · intro h
    apply List.eq_nil_iff_forall_not_mem.2
    intro p hp
    exact absurd (h [p] ⟨hp, trivial⟩) (Nat.not_succ_le_zero 0)
  · rintro rfl ps hps
    cases ps with
    | nil => exact Nat.le_refl 0
    | cons p ps => exact absurd hps.1 List.not_mem_nil

/-- Chains are no longer than `n + 1` when those from the partials they begin with are no longer than `n`. -/
theorem forall_isChain_succ_iff {qs : List Text} :
    (∀ ps, parts.IsChain qs ps → ps.length ≤ n + 1) ↔
      ∀ p ∈ qs, ∀ ps, parts.IsChain (parts.sources p) ps → ps.length ≤ n := by
  constructor
  · intro h p hp ps hps
    have hlen := h (p :: ps) ⟨hp, hps⟩
    rw [List.length_cons] at hlen
    omega
  · intro h ps hps
    cases ps with
    | nil => exact Nat.zero_le _
    | cons p ps =>
      have hlen := h p hps.1 ps hps.2
      rw [List.length_cons]
      omega

end Partials

/-! ## Expansion -/

namespace Site

variable {σ : Type} [Storage σ] {site : Site σ} {frontmatter : Option Fields} {parts : Partials}
  {f g rest : Fragment} {p t out : Text} {n : ℕ}

variable (site) in
/-- The partial of a source is a fragment without braces that can be read, or none can be read. -/
def Provides (parts : Partials) (p : Text) : Prop :=
  match parts p with
  | some g => g.Proper ∧ '\x7b' ∉ g.write ∧ site.read (SitePath.includes.joinText p) = .ok g.write
  | none => ∃ err, site.read (SitePath.includes.joinText p) = .error err

theorem Provides.of_eq_some (h : site.Provides parts p) (hg : parts p = some g) :
    g.Proper ∧ '\x7b' ∉ g.write ∧ site.read (SitePath.includes.joinText p) = .ok g.write := by
  rwa [Provides, hg] at h

theorem expandIncludesWithin_text (h : (Fragment.text t).Proper) (n : ℕ) :
    site.expandIncludesWithin frontmatter n t = .ok t :=
  expandIncludesWithin_of_includeFree (includeFree_of_find?_eq_none (Fragment.find?_text h)) n

/-- One include: it can be expanded when its partial can, one level deeper, and so can the rest. -/
theorem expandIncludesWithin_tag_eq_ok_iff (hf : (Fragment.tag t p rest).Proper) (hp : site.Provides parts p) :
    site.expandIncludesWithin frontmatter n (Fragment.tag t p rest).write = .ok out ↔
      ∃ m g inner tail, n = m + 1 ∧ parts p = some g ∧ site.expandIncludesWithin frontmatter m g.write = .ok inner ∧
        site.expandIncludesWithin frontmatter n rest.write = .ok tail ∧ out = t ++ (inner ++ tail) := by
  have hfind := Fragment.find?_tag hf
  cases n with
  | zero =>
    rw [expandIncludesWithin_zero_of_find? hfind rfl]
    constructor
    · intro h
      cases h
    · rintro ⟨m, g, inner, tail, hm, -⟩
      omega
  | succ n =>
    rw [expandIncludesWithin_succ_eq_ok_iff hfind rfl]
    constructor
    · rintro ⟨template, inner, tail, hread, hinner, htail, rfl⟩
      cases hparts : parts p with
      | none =>
        rw [Provides, hparts] at hp
        obtain ⟨err, herr⟩ := hp
        cases herr.symm.trans hread
      | some g =>
        obtain ⟨-, hbrace, hwritten⟩ := hp.of_eq_some hparts
        obtain rfl := Except.ok.inj (hwritten.symm.trans hread)
        rw [fillPartial_of_notMem hbrace] at hinner
        exact ⟨n, g, inner, tail, rfl, rfl, hinner, htail, rfl⟩
    · rintro ⟨m, g, inner, tail, hm, hg, hinner, htail, rfl⟩
      obtain rfl := Nat.succ.inj hm
      obtain ⟨-, hbrace, hread⟩ := hp.of_eq_some hg
      refine ⟨g.write, inner, tail, hread, ?_, htail, rfl⟩
      rwa [fillPartial_of_notMem hbrace]

/-- A fragment can be expanded when all partials of its tags can, one level deeper. -/
theorem exists_expandIncludesWithin_iff (hf : f.Proper) (h : ∀ p ∈ f.sources, site.Provides parts p) :
    (∃ out, site.expandIncludesWithin frontmatter n f.write = .ok out) ↔
      ∀ p ∈ f.sources, ∃ m g inner, n = m + 1 ∧ parts p = some g ∧
        site.expandIncludesWithin frontmatter m g.write = .ok inner := by
  induction f with
  | text t =>
    constructor
    · intro _ p hp
      simp [Fragment.sources] at hp
    · intro _
      exact ⟨t, expandIncludesWithin_text hf n⟩
  | tag t p rest ih =>
    have hrest := ih hf.2.2 fun q hq => h q (List.mem_cons_of_mem p hq)
    have hiff : ∀ out, site.expandIncludesWithin frontmatter n (Fragment.tag t p rest).write = .ok out ↔ _ :=
      fun out => expandIncludesWithin_tag_eq_ok_iff hf (h p List.mem_cons_self)
    rw [Fragment.sources, List.forall_mem_cons, ← hrest]
    constructor
    · rintro ⟨out, hout⟩
      obtain ⟨m, g, inner, tail, hm, hg, hinner, htail, -⟩ := (hiff out).1 hout
      exact ⟨⟨m, g, inner, hm, hg, hinner⟩, tail, htail⟩
    · rintro ⟨⟨m, g, inner, hm, hg, hinner⟩, tail, htail⟩
      exact ⟨_, (hiff _).2 ⟨m, g, inner, tail, hm, hg, hinner, htail, rfl⟩⟩

/-- What a fragment is expanded to is what it unfolds to. -/
theorem unfolds_of_expandIncludesWithin (hf : f.Proper) (h : ∀ p, parts.Reaches f p → site.Provides parts p)
    (hout : site.expandIncludesWithin frontmatter n f.write = .ok out) : parts.Unfolds f out := by
  -- on the depth for the partials, and on the fragment for what is behind a tag
  induction n using Nat.strong_induction_on generalizing f out with
  | _ n ihn =>
    induction f generalizing out with
    | text t =>
      rw [Fragment.write, expandIncludesWithin_text hf] at hout
      obtain rfl := Except.ok.inj hout
      exact .text t
    | tag t p rest ih =>
      have hprovides := h p (.of_mem List.mem_cons_self)
      obtain ⟨m, g, inner, tail, rfl, hg, hinner, htail, rfl⟩ :=
        (expandIncludesWithin_tag_eq_ok_iff hf hprovides).1 hout
      have hpartial := ihn m (by omega) (hprovides.of_eq_some hg).1
        (fun q hq => h q (hq.trans List.mem_cons_self hg)) hinner
      exact .tag hg hpartial (ih hf.2.2 (fun q hq => h q hq.of_rest) htail)

/-- All partials that are reached must exist, and no chain of includes may be longer than the depth. -/
theorem exists_expandIncludesWithin_iff_isChain (hf : f.Proper)
    (h : ∀ p, parts.Reaches f p → site.Provides parts p) :
    (∃ out, site.expandIncludesWithin frontmatter n f.write = .ok out) ↔
      (∀ p, parts.Reaches f p → (parts p).isSome) ∧ ∀ ps, parts.IsChain f.sources ps → ps.length ≤ n := by
  rw [exists_expandIncludesWithin_iff hf fun p hp => h p (.of_mem hp), Partials.forall_reaches_iff]
  -- each partial of a tag is expanded with one level less, and a chain goes on in it with one source less
  induction n generalizing f with
  | zero =>
    rw [Partials.forall_isChain_zero_iff]
    constructor
    · intro hall
      have hnone : f.sources = [] := by
        apply List.eq_nil_iff_forall_not_mem.2
        intro p hp
        obtain ⟨m, -, -, hm, -⟩ := hall p hp
        omega
      rw [hnone]
      exact ⟨fun p hp => absurd hp List.not_mem_nil, rfl⟩
    · rintro ⟨-, hnone⟩ p hp
      rw [hnone] at hp
      exact absurd hp List.not_mem_nil
  | succ n ih =>
    have hpartial : ∀ {p g}, p ∈ f.sources → parts p = some g →
        ((∃ inner, site.expandIncludesWithin frontmatter n g.write = .ok inner) ↔
          (∀ q, parts.Reaches g q → (parts q).isSome) ∧ ∀ ps, parts.IsChain g.sources ps → ps.length ≤ n) := by
      intro p g hp hg
      have hproper : g.Proper := ((h p (.of_mem hp)).of_eq_some hg).1
      have hprovides : ∀ q, parts.Reaches g q → site.Provides parts q := fun q hq => h q (hq.trans hp hg)
      rw [exists_expandIncludesWithin_iff hproper fun q hq => hprovides q (.of_mem hq), Partials.forall_reaches_iff]
      exact ih hproper hprovides
    rw [Partials.forall_isChain_succ_iff, ← forall₂_and]
    apply forall₂_congr
    intro p hp
    constructor
    · rintro ⟨m, g, inner, hm, hg, hinner⟩
      obtain rfl := Nat.succ.inj hm
      rw [Partials.sources_of_eq_some hg]
      obtain ⟨hexists, hchains⟩ := (hpartial hp hg).1 ⟨inner, hinner⟩
      exact ⟨⟨g, hg, hexists⟩, hchains⟩
    · rintro ⟨⟨g, hg, hexists⟩, hchains⟩
      rw [Partials.sources_of_eq_some hg] at hchains
      obtain ⟨inner, hinner⟩ := (hpartial hp hg).2 ⟨hexists, hchains⟩
      exact ⟨n, g, inner, rfl, hg, hinner⟩

/-- A fragment is expanded to what it unfolds to, if all partials that are reached exist and no chain of includes is
longer than includes may be nested. So a cycle of includes is an error, however deep they may be nested. -/
theorem expandIncludes_fragment (hf : f.Proper) (h : ∀ p, parts.Reaches f p → site.Provides parts p) :
    ((∃ out, site.expandIncludes frontmatter f.write = .ok out) ↔
      (∀ p, parts.Reaches f p → (parts p).isSome) ∧
        ∀ ps, parts.IsChain f.sources ps → ps.length ≤ site.settings.maxDepth) ∧
    (∀ out, site.expandIncludes frontmatter f.write = .ok out → ∀ t, parts.Unfolds f t ↔ t = out) ∧
    ((∃ p, parts.Reaches f p ∧ Relation.TransGen parts.Includes p p) →
      ∃ err, site.expandIncludes frontmatter f.write = .error err) := by
  have hiff : (∃ out, site.expandIncludes frontmatter f.write = .ok out) ↔ _ :=
    exists_expandIncludesWithin_iff_isChain hf h
  refine ⟨hiff, ?_, ?_⟩
  · intro out hout t
    have hunfolds := unfolds_of_expandIncludesWithin hf h hout
    exact ⟨fun ht => ht.unique hunfolds, fun ht => ht ▸ hunfolds⟩
  · rintro ⟨p, ⟨q, hq, hpath⟩, hcycle⟩
    cases hout : site.expandIncludes frontmatter f.write with
    | error err => exact ⟨err, rfl⟩
    | ok out =>
      exfalso
      obtain ⟨ps, hps, hlen⟩ := Partials.exists_isChain_of_cycle hcycle site.settings.maxDepth
      obtain ⟨qs, hqs, hlonger⟩ := hps.of_reflTransGen hpath
      have hshort := (hiff.1 ⟨out, hout⟩).2 (q :: qs) ⟨hq, hqs⟩
      rw [List.length_cons] at hshort
      omega

/-! ### A partial that others share -/

/-- Two partials that include a third one, the first of them twice. -/
def sharedPartials : Partials := fun p =>
  if p = ['p'] then some (.tag ['('] ['r'] (.tag ['|'] ['r'] (.text [')'])))
  else if p = ['q'] then some (.tag ['['] ['r'] (.text [']']))
  else if p = ['r'] then some (.text ['x'])
  else none

/-- The site of these partials. -/
def sharedSite (maxDepth : ℕ) : Site MemoryStore where
  store := .ofList [(⟨"includes/p".toList⟩, "(<include src=\"r\"/>|<include src=\"r\"/>)".toList),
    (⟨"includes/q".toList⟩, "[<include src=\"r\"/>]".toList), (⟨"includes/r".toList⟩, ['x'])]
  settings := { SiteSettings.default with maxDepth }
  collections := []

/-- A text that includes the first two. -/
def sharedFragment : Fragment := .tag [] ['p'] (.tag [] ['q'] (.text ['.']))

theorem provides_sharedSite (maxDepth : ℕ) (h : sharedPartials.Reaches sharedFragment p) :
    (sharedSite maxDepth).Provides sharedPartials p := by
  have hmem : p ∈ [['p'], ['q'], ['r']] := h.mem (by decide) (by decide)
  simp only [List.mem_cons, List.not_mem_nil, or_false] at hmem
  rcases hmem with rfl | rfl | rfl <;> exact ⟨by decide, by decide, rfl⟩

/-- The includes are nested twice here. It is enough to allow that, and it is not enough to allow less. -/
theorem expandIncludes_sharedFragment :
    (sharedSite 2).expandIncludes none sharedFragment.write = .ok "(x|x)[x].".toList ∧
      ¬ ∃ out, (sharedSite 1).expandIncludes none sharedFragment.write = .ok out := by
  have hproper : sharedFragment.Proper := by decide
  have hexists : ∀ p, sharedPartials.Reaches sharedFragment p → (sharedPartials p).isSome := by
    intro p hp
    have hmem : p ∈ [['p'], ['q'], ['r']] := hp.mem (by decide) (by decide)
    have hall : ∀ p ∈ [['p'], ['q'], ['r']], (sharedPartials p).isSome := by decide
    exact hall p hmem
  have hchains : ∀ ps, sharedPartials.IsChain sharedFragment.sources ps → ps.length ≤ 2 := by
    have hsources : ∀ p ∈ sharedFragment.sources, ∀ q ∈ sharedPartials.sources p, sharedPartials.sources q = [] := by
      decide
    apply Partials.forall_isChain_succ_iff.2
    intro p hp
    apply Partials.forall_isChain_succ_iff.2
    intro q hq
    exact Partials.forall_isChain_zero_iff.2 (hsources p hp q hq)
  constructor
  · obtain ⟨hiff, hunfolds, -⟩ := expandIncludes_fragment hproper fun p => provides_sharedSite 2
    obtain ⟨out, hout⟩ := hiff.2 ⟨hexists, hchains⟩
    have hx : sharedPartials.Unfolds (.text ['x']) ['x'] := .text ['x']
    have hp := Partials.Unfolds.tag (t := ['(']) (p := ['r']) rfl hx (.tag (t := ['|']) (p := ['r']) rfl hx (.text [')']))
    have hq := Partials.Unfolds.tag (t := ['[']) (p := ['r']) rfl hx (.text [']'])
    have hwhole : sharedPartials.Unfolds sharedFragment "(x|x)[x].".toList := .tag rfl hp (.tag rfl hq (.text ['.']))
    rw [hout, (hunfolds out hout _).1 hwhole]
  · obtain ⟨hiff, -⟩ := expandIncludes_fragment hproper fun p => provides_sharedSite 1
    intro hout
    have hlen := (hiff.1 hout).2 [['p'], ['r']] ⟨by decide, by decide, trivial⟩
    exact absurd hlen (by decide)

end Site

end Pagewright
