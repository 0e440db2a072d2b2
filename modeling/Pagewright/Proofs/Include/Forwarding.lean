import Pagewright.Proofs.Include.Expansion
import Pagewright.Storage.Memory

/-!
# Attributes that are handed on

A partial can hand an attribute on to another partial by writing its placeholder into the tag of an include. On
the way the value is put between the quotes of that tag and read again from there. It comes back as it was when it
has no double quote, no brace and no `<`, so in the end of a chain of such partials it is shown as it is
(`Site.expandIncludes_forwards`), as long as the chain is not longer than includes may be nested.

A double quote in the value ends it on the way (`Site.expandIncludes_forwards_quote`).
-/

namespace Pagewright

variable {source value t before after p key : Text} {ps : List Text}

/-! ## Tags that hand an attribute on -/

/-- An include without a body, with one attribute besides its source. -/
def forwardTag (source value : Text) : Text :=
  '<' :: ("include src=\"".toList ++ (source ++ ("\" name=\"".toList ++ (value ++ "\"/>".toList))))

/-- The placeholder of the attribute. -/
def nameMark : Text := "\x7bname\x7d".toList

/-- A text that can be put between double quotes, and that no placeholder and no tag can begin in. -/
def IsForwardable (t : Text) : Prop := ∀ c ∈ t, c ∉ "\"<\x7b\x7d".toList

instance (t : Text) : Decidable (IsForwardable t) := inferInstanceAs (Decidable (∀ c ∈ t, _))

theorem IsForwardable.notMem {c : Char} (h : IsForwardable t) (hc : c ∈ "\"<\x7b\x7d".toList) : c ∉ t :=
  fun hm => h c hm hc

/-- The element that is read from such a tag. -/
def forwardElement (source value : Text) : Element where
  opening := forwardTag source value
  attributes := [("src".toList, source), ("name".toList, value)]
  content := none

theorem find?_forwardTag (hsource : '"' ∉ source) (hvalue : '"' ∉ value) :
    Element.find? "include".toList (forwardTag source value) = some ([], forwardElement source value, []) := by
  have hsrc : OpenTag.IsName "src".toList := ⟨by decide +kernel, 's', "rc".toList, by decide⟩
  have hname : OpenTag.IsName "name".toList := ⟨by decide +kernel, 'n', "ame".toList, by decide⟩
  let behind : Text := " src=\"".toList ++ (source ++ ("\" name=\"".toList ++ (value ++ "\"/>".toList)))
  have hbehind : behind = ' ' :: ("src".toList ++ "=\"".toList ++ source ++ '"' :: ' ' ::
      ("name".toList ++ "=\"".toList ++ value ++ '"' :: '/' :: '>' :: [])) := by
    simp [behind]
  have hparse : OpenTag.parse? behind = some (⟨[("src".toList, source), ("name".toList, value)], true⟩, []) := by
    rw [OpenTag.parse?, hbehind, OpenTag.parseFrom_blank (by decide), OpenTag.parseFrom_attribute hsrc hsource,
      OpenTag.parseFrom_blank (by decide), OpenTag.parseFrom_attribute hname hvalue, OpenTag.parseFrom_selfClosing]
    rfl
  have htag : forwardTag source value = '<' :: ("include".toList ++ behind) ++ [] := by
    rw [List.append_nil]
    rfl
  have hfind : Element.find? "include".toList ('<' :: ("include".toList ++ behind) ++ []) =
      some ([], ⟨'<' :: ("include".toList ++ behind), [("src".toList, source), ("name".toList, value)], none⟩, []) := by
    refine Element.find?_selfClosing ⟨behind, ?_, hparse⟩
    rw [List.append_nil]
    rfl
  rw [htag, hfind]
  rfl

/-! ## Values that are handed on -/

theorem GlobalReference.parse?_cons_of_ne {d : Char} (hd : d ≠ '\x7b') : GlobalReference.parse? (d :: t) = none := by
  have hafter : Text.after? "\x7bglobal.".toList (d :: t) = none := if_neg (Ne.symm hd)
  rw [GlobalReference.parse?, hafter]
  rfl

namespace Site

variable {σ : Type} [Storage σ] {site : Site σ} {frontmatter : Option Fields} {fields : Fields}

theorem resolveGlobals_of_notMem (h : '\x7b' ∉ t) : site.resolveGlobals t = t := by
  refine Text.substitute_of_notMem (fun d s hd => ?_) h
  rw [GlobalReference.parse?_cons_of_ne hd]
  rfl

/-- A value without braces stands for itself. -/
theorem resolveValue_of_notMem (h : '\x7b' ∉ t) : site.resolveValue frontmatter t = t := by
  cases frontmatter with
  | none => exact resolveGlobals_of_notMem h
  | some fields =>
    have hfields : replaceFrontmatter fields t = t := replaceScoped_of_notMem h _ fields
    show site.resolveGlobals (replaceFrontmatter fields t) = t
    rw [hfields, resolveGlobals_of_notMem h]

/-- A placeholder for a field of the frontmatter, as the value of an attribute. -/
theorem resolveValue_field (hkey : key ≠ []) (hpath : ∀ c ∈ key, Placeholder.isPathChar c)
    (hfield : Fields.lookup? fields key = some (.string t)) (ht : '\x7b' ∉ t) :
    site.resolveValue (some fields) ("\x7bfrontmatter.".toList ++ (key ++ ['\x7d'])) = t := by
  have hend : Placeholder.tail? ['\x7d'] = some (none, []) := rfl
  have hparse : Placeholder.parse? (Placeholder.scopeOpening "frontmatter".toList) Placeholder.isPathChar
      ("\x7bfrontmatter.".toList ++ (key ++ ['\x7d'])) = some (key, none, []) :=
    Placeholder.parse?_path hkey hpath hend
  have hfill : replaceFrontmatter fields ("\x7bfrontmatter.".toList ++ (key ++ ['\x7d'])) = t := by
    rw [replaceFrontmatter, replaceScoped, Placeholder.replace_of_parse? hparse, hfield, Placeholder.replace,
      Text.substitute, List.append_nil]
    rfl
  show site.resolveGlobals (replaceFrontmatter fields _) = t
  rw [hfill, resolveGlobals_of_notMem ht]

/-- The value of the attribute is put in at its placeholder. -/
theorem fillPartial_name (hvalue : site.resolveValue frontmatter value = t) (ht : '\x7b' ∉ t)
    (hbefore : '\x7b' ∉ before) (hafter : '\x7b' ∉ after) (hafter' : '\x7d' ∉ after) :
    site.fillPartial frontmatter (forwardElement source value) (before ++ (nameMark ++ after)) =
      before ++ (t ++ after) := by
  have hmark : nameMark ++ after = '\x7b' :: "name".toList ++ '\x7d' :: after := rfl
  have hsrc : ∀ v, replaceNamed "src".toList v (before ++ (nameMark ++ after)) = before ++ (nameMark ++ after) := by
    intro v
    rw [hmark]
    exact replaceNamed_hole_of_ne (by decide) (by decide) hbefore hafter hafter'
  have hname : replaceNamed "name".toList t (before ++ (nameMark ++ after)) = before ++ (t ++ after) := by
    rw [hmark]
    exact replaceNamed_hole hbefore hafter
  have hbrace : '\x7b' ∉ before ++ (t ++ after) := by
    simp [hbefore, ht, hafter]
  have hslot : '\x7b' ∈ slot := by decide
  show sweepBare (Text.replaceAll slot [] (replaceNamed "name".toList (site.resolveValue frontmatter value)
    (replaceNamed "src".toList (site.resolveValue frontmatter source) (before ++ (nameMark ++ after))))) = _
  rw [hsrc, hvalue, hname, Text.replaceAll_of_notMem hslot hbrace, sweepBare_of_notMem hbrace]

/-! ## Chains of partials -/

variable (site) in
/-- A partial hands the attribute on to the next one of a chain; the last one shows it. -/
def Forwards : Text → List Text → Prop
  | p, [] => site.read (SitePath.includes.joinText p) = .ok nameMark
  | p, q :: qs => site.read (SitePath.includes.joinText p) = .ok (forwardTag q nameMark) ∧ Forwards q qs

/-- What is put out for a value that goes through a chain of partials: the value, unless one of them is nested too
deep. -/
def forwarded (depth maxDepth : ℕ) (sources : List Text) (t : Text) : Except TemplateError Text :=
  match sources[depth]? with
  | none => .ok t
  | some source => .error (.depthExceeded source maxDepth)

theorem expandIncludesWithin_zero_forwardTag (hp : '"' ∉ p) (hvalue : '"' ∉ value) :
    site.expandIncludesWithin frontmatter 0 (forwardTag p value) =
      .error (.depthExceeded p site.settings.maxDepth) :=
  expandIncludesWithin_zero_include (find?_forwardTag hp hvalue) rfl

/-- One step of a chain: what the value is put into is expanded one level deeper. -/
theorem expandIncludesWithin_forwardTag (hp : '"' ∉ p) (hquote : '"' ∉ value)
    (hvalue : site.resolveValue frontmatter value = t) (ht : '\x7b' ∉ t) (hbefore : '\x7b' ∉ before)
    (hafter : '\x7b' ∉ after) (hafter' : '\x7d' ∉ after)
    (hread : site.read (SitePath.includes.joinText p) = .ok (before ++ (nameMark ++ after))) (n : ℕ) :
    site.expandIncludesWithin frontmatter (n + 1) (forwardTag p value) =
      site.expandIncludesWithin frontmatter n (before ++ (t ++ after)) := by
  rw [expandIncludesWithin_include (find?_forwardTag hp hquote) rfl hread,
    fillPartial_name hvalue ht hbefore hafter hafter']

/-- The same value stands in front of every partial of a chain, so each rest of the chain is like the whole. -/
theorem expandIncludesWithin_forwards (hchain : site.Forwards p ps) (hsources : ∀ q ∈ p :: ps, IsForwardable q)
    (ht : IsForwardable t) (hquote : '"' ∉ value) (hvalue : site.resolveValue frontmatter value = t) (n : ℕ) :
    site.expandIncludesWithin frontmatter n (forwardTag p value) =
      forwarded n site.settings.maxDepth (p :: ps) t := by
  have hbrace : '\x7b' ∉ t := ht.notMem (by decide)
  have hopen : '\x7b' ∉ "\"/>".toList := by decide
  have hclose : '\x7d' ∉ "\"/>".toList := by decide
  induction ps generalizing p value n with
  | nil =>
    have hp : '"' ∉ p := (hsources p List.mem_cons_self).notMem (by decide)
    cases n with
    | zero => exact expandIncludesWithin_zero_forwardTag hp hquote
    | succ n =>
      have hread : site.read (SitePath.includes.joinText p) = .ok ([] ++ (nameMark ++ [])) := by
        rw [List.nil_append, List.append_nil]
        exact hchain
      have hfree : IncludeFree ([] ++ (t ++ [])) := by
        rw [List.nil_append, List.append_nil]
        exact includeFree_of_notMem (ht.notMem (by decide))
      rw [expandIncludesWithin_forwardTag hp hquote hvalue hbrace (by simp) (by simp) (by simp) hread,
        expandIncludesWithin_of_includeFree hfree, List.nil_append, List.append_nil]
      rfl
  | cons q qs ih =>
    obtain ⟨hfirst, hrest⟩ := hchain
    have hp : '"' ∉ p := (hsources p List.mem_cons_self).notMem (by decide)
    have hq : '\x7b' ∉ q := (hsources q (by simp)).notMem (by decide)
    cases n with
    | zero => exact expandIncludesWithin_zero_forwardTag hp hquote
    | succ n =>
      -- the value goes between the quotes of the next tag
      have htag : ∀ v, forwardTag q v = ("<include src=\"".toList ++ (q ++ "\" name=\"".toList)) ++ (v ++ "\"/>".toList) := by
        intro v
        simp [forwardTag]
      have hbefore : '\x7b' ∉ "<include src=\"".toList ++ (q ++ "\" name=\"".toList) := by
        rw [List.mem_append, List.mem_append, not_or, not_or]
        exact ⟨by decide, hq, by decide⟩
      rw [htag] at hfirst
      rw [expandIncludesWithin_forwardTag hp hquote hvalue hbrace hbefore hopen hclose hfirst, ← htag]
      exact ih hrest (fun r hr => hsources r (List.mem_cons_of_mem p hr)) (ht.notMem (by decide))
        (resolveValue_of_notMem hbrace) n

/-- A field of the frontmatter that goes through a chain of partials is shown as it is, unless the chain is longer
than includes may be nested. -/
theorem expandIncludes_forwards (hchain : site.Forwards p ps) (hsources : ∀ q ∈ p :: ps, IsForwardable q)
    (hkey : key ≠ []) (hpath : ∀ c ∈ key, Placeholder.isPathChar c ∧ c ≠ '"')
    (hfield : Fields.lookup? fields key = some (.string t)) (ht : IsForwardable t) :
    site.expandIncludes (some fields) (forwardTag p ("\x7bfrontmatter.".toList ++ (key ++ ['\x7d']))) =
      forwarded site.settings.maxDepth site.settings.maxDepth (p :: ps) t := by
  have hvalue : site.resolveValue (some fields) ("\x7bfrontmatter.".toList ++ (key ++ ['\x7d'])) = t :=
    resolveValue_field hkey (fun c hc => (hpath c hc).1) hfield (ht.notMem (by decide))
  have hquote : '"' ∉ "\x7bfrontmatter.".toList ++ (key ++ ['\x7d']) := by
    rw [List.mem_append, List.mem_append, not_or, not_or]
    exact ⟨by decide, fun hm => (hpath _ hm).2 rfl, by decide⟩
  exact expandIncludesWithin_forwards hchain hsources ht hquote hvalue _

/-! ### Two partials -/

/-- A site on which one partial hands its attribute on to another one. -/
def forwardSite (maxDepth : ℕ) : Site MemoryStore where
  store := .ofList [(⟨"includes/outer.html".toList⟩, forwardTag "inner.html".toList nameMark),
    (⟨"includes/inner.html".toList⟩, nameMark)]
  settings := { SiteSettings.default with maxDepth }
  collections := []

theorem forwards_forwardSite (maxDepth : ℕ) :
    (forwardSite maxDepth).Forwards "outer.html".toList ["inner.html".toList] := by
  constructor <;> rfl

/-- What stands in the frontmatter is shown, quotes of the other kind and signs of HTML included. -/
theorem expandIncludes_forwards_apostrophe :
    (forwardSite 2).expandIncludes (some [(['t'], .string "it's > & ok".toList)])
        (forwardTag "outer.html".toList "\x7bfrontmatter.t\x7d".toList) = .ok "it's > & ok".toList := by
  have hsources : ∀ q ∈ ["outer.html".toList, "inner.html".toList], IsForwardable q := by decide
  have hpath : ∀ c ∈ ['t'], Placeholder.isPathChar c ∧ c ≠ '"' := by decide
  have hfield : Fields.lookup? [(['t'], .string "it's > & ok".toList)] ['t'] = some (.string "it's > & ok".toList) := rfl
  have hmark : "\x7bfrontmatter.t\x7d".toList = "\x7bfrontmatter.".toList ++ (['t'] ++ ['\x7d']) := by decide
  rw [hmark, expandIncludes_forwards (forwards_forwardSite 2) hsources (by decide) hpath hfield (by decide)]
  rfl

/-- A double quote ends the value on the way, and a chain that is longer than includes may be nested is an error. -/
theorem expandIncludes_forwards_quote :
    (forwardSite 2).expandIncludes (some [(['t'], .string "a\"b".toList)])
        (forwardTag "outer.html".toList "\x7bfrontmatter.t\x7d".toList) = .ok ['a'] ∧
      (forwardSite 1).expandIncludes (some [(['t'], .string "ab".toList)])
        (forwardTag "outer.html".toList "\x7bfrontmatter.t\x7d".toList) =
          .error (.depthExceeded "inner.html".toList 1) := by
  decide +kernel

end Site

end Pagewright
