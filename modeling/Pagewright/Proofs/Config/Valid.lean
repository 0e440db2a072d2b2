import Pagewright.Config.Basic
import Pagewright.Proofs.Include.Expansion
import Pagewright.Storage.Memory

/-!
# Loaded configurations are valid

A configuration comes from a file that is named, from one that is found, or from the working directory, and the
command line may change it afterwards. Three things live here:

* what it means for settings to be valid (`SiteSettings.Valid`), which is that no problem is found with them
  (`Config.problem?_eq_none_iff`);
* wherever a configuration is loaded from, its settings are valid before the command line changes them
  (`Config.valid_of_loadBase`), and they are checked again after that;
* so they always are, and a site with them gets through texts with includes on one level (`Config.load_valid`).
-/

namespace Pagewright

/-- Settings that documents can be made with. -/
structure SiteSettings.Valid (s : SiteSettings) : Prop where
  url : s.url = SiteSettings.relativeUrl ∨ "http://".toList <+: s.url ∨ "https://".toList <+: s.url ∨ ['/'] <+: s.url
  depth : 1 ≤ s.maxDepth ∧ s.maxDepth ≤ 1000
  sortKey : s.sortKey ≠ []

theorem SiteSettings.default_valid : SiteSettings.default.Valid := ⟨Or.inl rfl, by decide, by decide⟩

namespace Config

variable {d : Disk} {env : Environment} {file : Option Path} {overrides : Option Overrides} {c c' : Config}
  {s : SiteSettings} {p : Path} {t url : Text}

/-! ## Problems of settings -/

theorem isBaseUrl_iff : isBaseUrl url ↔ url = SiteSettings.relativeUrl ∨ "http://".toList <+: url ∨
    "https://".toList <+: url ∨ ['/'] <+: url := by
  simp only [isBaseUrl, Bool.or_eq_true, decide_eq_true_eq, Text.startsWith_iff, or_assoc]

theorem ne_nil_of_isBaseUrl (h : isBaseUrl url) : url ≠ [] := by
  rintro rfl
  exact absurd h (by decide)

private theorem ite_some_eq_none_iff {α : Type} {P : Prop} [Decidable P] {a : α} {o : Option α} :
    (if P then some a else o) = none ↔ ¬ P ∧ o = none := by
  by_cases h : P <;> simp [h]

/-- No problem is found with settings if and only if they are valid. That the URL is not empty follows from what it
begins with. -/
theorem problem?_eq_none_iff : problem? s = none ↔ s.Valid := by
  simp only [problem?, ite_some_eq_none_iff, Bool.not_eq_true', Bool.not_eq_false, List.isEmpty_iff, not_lt, and_true]
  constructor
  · rintro ⟨-, hbase, hzero, hdepth, hkey⟩
    exact ⟨isBaseUrl_iff.1 hbase, ⟨Nat.one_le_iff_ne_zero.2 hzero, hdepth⟩, hkey⟩
  · rintro ⟨hurl, ⟨hpos, hdepth⟩, hkey⟩
    have hbase := isBaseUrl_iff.2 hurl
    exact ⟨ne_nil_of_isBaseUrl hbase, hbase, Nat.one_le_iff_ne_zero.1 hpos, hdepth, hkey⟩

theorem validate_eq_ok_iff : c.validate = .ok c' ↔ c.settings.Valid ∧ c = c' := by
  rw [validate, ← problem?_eq_none_iff]
  cases problem? c.settings <;> simp

/-! ## Loading -/

theorem valid_of_ofText (h : ofText env p t = .ok c) : c.settings.Valid := by
  unfold ofText at h
  split at h
  · cases h
  · obtain ⟨f, -, hvalid⟩ := bind_eq_ok_iff.1 h
    obtain ⟨hsettings, rfl⟩ := validate_eq_ok_iff.1 hvalid
    exact hsettings

theorem valid_of_loadFile (h : loadFile d env p = .ok c) : c.settings.Valid := by
  obtain ⟨t, -, ht⟩ := bind_eq_ok_iff.1 h
  exact valid_of_ofText ht

/-- The settings are valid before the command line changes them, also where there is no file. -/
theorem valid_of_loadBase (h : loadBase d env file = .ok c) : c.settings.Valid := by
  unfold loadBase at h
  split at h
  · split at h
    · exact valid_of_loadFile h
    · cases h
  · split at h
    · exact valid_of_loadFile h
    · obtain rfl := Except.ok.inj h
      exact SiteSettings.default_valid

/-- Wherever a configuration comes from and whatever the command line changes, it is valid. So a site with its settings
expands the includes of every text that has them on one level. -/
theorem load_valid (h : load d env file overrides = .ok c) :
    c.settings.Valid ∧ c.validate = .ok c ∧
      ∀ (σ : Type) [Storage σ] (site : Site σ), site.settings = c.settings →
        ∀ frontmatter partialText t, site.OneLevel frontmatter partialText t →
          site.expandIncludes frontmatter t =
            .ok (replaceElements "include".toList (fun e => (e.attribute? "src".toList).map fun source =>
              site.fillPartial frontmatter e (partialText source)) t) := by
  have hvalid : c.settings.Valid := by
    obtain ⟨base, hbase, hrest⟩ := bind_eq_ok_iff.1 h
    cases overrides with
    | none =>
      obtain rfl := Except.ok.inj hrest
      exact valid_of_loadBase hbase
    | some o =>
      obtain ⟨hsettings, rfl⟩ := validate_eq_ok_iff.1 hrest
      exact hsettings
  refine ⟨hvalid, validate_eq_ok_iff.2 ⟨hvalid, rfl⟩, fun σ _ site hsite frontmatter partialText t ht => ?_⟩
  obtain ⟨n, hn⟩ := Nat.exists_eq_add_of_le' hvalid.depth.1
  rw [Site.expandIncludes, hsite, hn]
  exact Site.expandIncludesWithin_succ_of_oneLevel ht n

/-! ### One level of includes -/

/-- A disk with a configuration file that allows for one level of includes. -/
def shallowDisk : Disk :=
  ⟨[(["site".toList], .directory),
    (["site".toList, "quill.toml".toList], .file (some "[template]\nmax_depth = 1\n".toList))], ["site".toList]⟩

/-- A storage with a partial that has a slot. -/
def boldStore : MemoryStore := .ofList [(⟨"includes/b".toList⟩, "<b>\x7bslot\x7d</b>".toList)]

/-- A text with two includes, one after the other. -/
def boldText : Text := "<include src=\"b\">a</include>-<include src=\"b\"/>".toList

/-- The URL is that of the command line, and one level is enough for the text. -/
theorem load_valid_shallowDisk :
    ∃ c, load shallowDisk [] none (some ⟨none, none, some "/blog".toList, none⟩) = .ok c ∧
      c.settings = ⟨false, "/blog".toList, 1, "date".toList⟩ ∧ c.settings.Valid ∧
      (Site.ofStore boldStore c.settings).expandIncludes none boldText = .ok "<b>a</b>-<b></b>".toList := by
  have hload : load shallowDisk [] none (some ⟨none, none, some "/blog".toList, none⟩) =
      .ok ⟨⟨"/site".toList⟩, ⟨"/site/_site".toList⟩, ⟨false, "/blog".toList, 1, "date".toList⟩,
        some ⟨"/site/quill.toml".toList⟩⟩ := by decide +kernel
  have hpieces : pieces "include".toList boldText =
      [.text [], .element ⟨"<include src=\"b\">".toList, [("src".toList, ['b'])], some (['a'], "</include>".toList)⟩,
        .text ['-'], .element ⟨"<include src=\"b\"/>".toList, [("src".toList, ['b'])], none⟩, .text []] := by
    decide +kernel
  have hlevel : (Site.ofStore boldStore ⟨false, "/blog".toList, 1, "date".toList⟩).OneLevel none
      (fun _ => "<b>\x7bslot\x7d</b>".toList) boldText := by
    intro e he source hsource
    rw [hpieces] at he
    simp only [List.mem_cons, reduceCtorEq, Piece.element.injEq, List.not_mem_nil, or_false, false_or] at he
    rcases he with rfl | rfl <;>
    · obtain rfl : ['b'] = source := Option.some.inj hsource
      exact ⟨by decide +kernel, includeFree_of_find?_eq_none (by decide +kernel)⟩
  obtain ⟨hvalid, -, hsite⟩ := load_valid hload
  exact ⟨_, hload, rfl, hvalid, (hsite MemoryStore (.ofStore boldStore _) rfl none _ _ hlevel).trans (by decide +kernel)⟩

end Config

end Pagewright
