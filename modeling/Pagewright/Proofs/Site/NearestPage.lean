import Pagewright.Proofs.Site.Route
import Pagewright.Site.ContentPage

/-!
# The nearest page

A content file is shown on the page of its own name, or else on the nearest page for the contents of a directory. Paths
are told by their names here. Three things live here:

* the page that a content file should have (`Site.Nearest`): the pages for a directory in their order
  (`Site.templates`), from the directory of the file up to the one of all pages, over ten directories at most
  (`Site.FoundAbove`);
* the search of the directories finds just that (`Site.findPage_eq_some_iff`);
* the whole lookup finds it too (`Site.pageForContent_nearest_iff`), unless the stem of the file is a single dot: the
  file `..md` has the page `..html`, which is never found (`Site.pageForContent_dot`).
-/

namespace Pagewright.Site

open Pagewright.Path

variable {σ : Type} [Storage σ] {site : Site σ} {ds : List Text} {d f s : Text} {p : Path} {k n : ℕ}

/-! ## Pages by their names -/

/-- The path below the directory of the pages. -/
def belowPages (l : List Text) : Path := ofNames ("pages".toList :: l)

/-- A content file in a directory below the one of the contents. -/
def contentFile (ds : List Text) (f : Text) : Path := ofNames ("content".toList :: (ds ++ [f]))

/-- The page of the same name as a content file. -/
def directPage (ds : List Text) (f : Text) : Path := belowPages (ds ++ [(splitName f).1 ++ ".html".toList])

/-- The pages for the contents of a directory, best first: two in it, and one beside it unless it is the directory of
all pages. -/
def templates (ds : List Text) : List Path :=
  [belowPages (ds ++ ["[content].html".toList]), belowPages (ds ++ ["index.html".toList])] ++
    ds.getLast?.toList.map fun d => belowPages (ds.dropLast ++ [d ++ ".html".toList])

/-- The first page that exists on the way from a directory up to the first `k` of its names, where the way has so many
directories at most. -/
structure FoundAbove (site : Site σ) (ds : List Text) (levels k : ℕ) (p : Path) : Prop where
  le_length : k ≤ ds.length
  within : ds.length < k + levels
  none_deeper : ∀ j, k < j → j ≤ ds.length → ∀ q ∈ templates (ds.take j), ¬ Storage.isPresent site.store q
  found : (templates (ds.take k)).find? (Storage.isPresent site.store) = some p

/-- The page that a content file should have. -/
inductive Nearest (site : Site σ) (ds : List Text) (f : Text) : Path → Prop
  | direct : Storage.isPresent site.store (directPage ds f) → Nearest site ds f (directPage ds f)
  | above {k : ℕ} {p : Path} : ¬ Storage.isPresent site.store (directPage ds f) → FoundAbove site ds 10 k p →
    Nearest site ds f p

/-! ## Names -/

theorem isName_pages (h : ∀ d ∈ ds, IsName d) : ∀ d ∈ "pages".toList :: ds, IsName d :=
  List.forall_mem_cons.2 ⟨by decide, h⟩

theorem isName_concat (h : ∀ d ∈ ds, IsName d) (hs : IsName s) : ∀ d ∈ ds ++ [s], IsName d :=
  List.forall_mem_append.2 ⟨h, by simpa using hs⟩

theorem belowPages_inj {l m : List Text} (hl : ∀ s ∈ l, IsName s) (hm : ∀ s ∈ m, IsName s)
    (h : belowPages l = belowPages m) : l = m := by
  have hnames := congrArg Path.names h
  rw [belowPages, belowPages, names_ofNames (isName_pages hl), names_ofNames (isName_pages hm)] at hnames
  exact (List.cons.inj hnames).2

/-- The extension of a page makes a name of any text without a separator. -/
theorem isName_html (h : '/' ∉ s) : IsName (s ++ ".html".toList) := by
  have hlength : (s ++ ".html".toList).length = s.length + 5 := List.length_append
  refine ⟨?_, ?_, ?_⟩
  · rw [isFiller, Bool.or_eq_false_iff, decide_eq_false_iff_not, decide_eq_false_iff_not]
    constructor <;> intro heq <;> rw [heq] at hlength <;> simp at hlength
  · intro heq
    rw [heq] at hlength
    simp at hlength
  · rw [List.mem_append, not_or]
    exact ⟨h, by decide⟩

theorem slash_notMem_stem (h : IsName s) : '/' ∉ (splitName s).1 := by
  rcases hsplit : splitName s with ⟨stem, old⟩
  cases old with
  | none =>
    rw [← eq_of_splitName_none hsplit]
    exact h.slash_notMem
  | some old =>
    obtain ⟨rfl, -, -⟩ := eq_append_of_splitName hsplit
    exact fun hm => h.slash_notMem (List.mem_append_left _ hm)

/-- The pages for a directory lie below the directory of all pages. Those beside it are less deep than those in it. -/
theorem exists_names_of_mem_templates (h : ∀ d ∈ ds, IsName d) (hp : p ∈ templates ds) :
    ∃ front s, p = belowPages (front ++ [s]) ∧ (∀ u ∈ front ++ [s], IsName u) ∧
      (front.length < ds.length ∨ s = "[content].html".toList ∨ s = "index.html".toList) := by
  rcases List.mem_append.1 hp with hp | hp
  · rcases List.mem_cons.1 hp with rfl | hp
    · exact ⟨ds, _, rfl, isName_concat h (by decide), .inr (.inl rfl)⟩
    · exact ⟨ds, _, List.mem_singleton.1 hp, isName_concat h (by decide), .inr (.inr rfl)⟩
  · obtain ⟨d, hd, rfl⟩ := List.mem_map.1 hp
    have hmem : d ∈ ds := List.mem_of_mem_getLast? (Option.mem_toList.1 hd)
    have hfront : ∀ u ∈ ds.dropLast, IsName u := fun u hu => h u (List.dropLast_subset ds hu)
    refine ⟨ds.dropLast, _, rfl, isName_concat hfront (isName_html (h d hmem).slash_notMem), .inl ?_⟩
    have hpos : 0 < ds.length := List.length_pos_of_mem hmem
    rw [List.length_dropLast]
    omega

/-! ## The search -/

theorem pageCandidates_eq (h : ∀ d ∈ ds, IsName d) : pageCandidates (belowPages ds) = templates ds := by
  have hall := isName_pages h
  have hne : "pages".toList :: ds ≠ [] := List.cons_ne_nil _ _
  have hinside : ∀ s, IsName s → (belowPages ds).joinText s = belowPages (ds ++ [s]) := fun s hs =>
    joinText_ofNames hne hall hs
  rcases List.eq_nil_or_concat ds with rfl | ⟨front, d, rfl⟩
  · decide +kernel
  · rw [List.concat_eq_append] at *
    have hd : IsName d := h d (by simp)
    have hfront : ∀ u ∈ front, IsName u := fun u hu => h u (List.mem_append_left _ hu)
    have hsplit : ∀ u ∈ ("pages".toList :: front) ++ [d], IsName u := hall
    have hparent : (belowPages (front ++ [d])).parent? = some (belowPages front) := parent?_ofNames hsplit
    have hname : (belowPages (front ++ [d])).fileName? = some d := fileName?_ofNames hsplit
    have hsame : ¬ (belowPages (front ++ [d])).same SitePath.pages := by
      intro hsame
      have heq := (same_ofNames_iff (m := ["pages".toList]) hall (by decide)).1 hsame
      simp at heq
    have hbeside : (belowPages front).joinText (d ++ ".html".toList) = belowPages (front ++ [d ++ ".html".toList]) :=
      joinText_ofNames (List.cons_ne_nil _ _) (isName_pages hfront) (isName_html hd.slash_notMem)
    rw [pageCandidates, hparent, hname]
    simp only [if_neg hsame, hbeside]
    rw [hinside _ (by decide), hinside _ (by decide), templates, List.getLast?_concat, List.dropLast_concat]
    rfl

theorem isPrefixOf_belowPages (h : ∀ d ∈ ds, IsName d) : SitePath.pages.isPrefixOf (belowPages ds) := by
  have hpages : SitePath.pages.components = [.name "pages".toList] := by decide
  rw [isPrefixOf, belowPages, components_ofNames (isName_pages h), hpages, List.map_cons, List.isPrefixOf_iff_prefix]
  exact ⟨ds.map .name, rfl⟩

/-- One level of the search. -/
theorem findPage_succ (h : ∀ d ∈ ds ++ [s], IsName d) (n : ℕ) :
    site.findPage (n + 1) (belowPages (ds ++ [s])) =
      ((templates (ds ++ [s])).find? (Storage.isPresent site.store)).or (site.findPage n (belowPages ds)) := by
  have hall : ∀ u ∈ ("pages".toList :: ds) ++ [s], IsName u := isName_pages h
  have hparent : (belowPages (ds ++ [s])).parent? = some (belowPages ds) := parent?_ofNames hall
  rw [findPage, isPrefixOf_belowPages h, pageCandidates_eq h, hparent]
  cases (templates (ds ++ [s])).find? (Storage.isPresent site.store) <;> rfl

/-- The last level of the search: nothing is looked for above the pages. -/
theorem findPage_pages (n : ℕ) :
    site.findPage (n + 1) (belowPages []) = (templates []).find? (Storage.isPresent site.store) := by
  have hin : SitePath.pages.isPrefixOf (belowPages []) := isPrefixOf_belowPages (by simp)
  have hparent : (belowPages []).parent? = some ⟨[]⟩ := by decide
  have habove : ∀ m, site.findPage m ⟨[]⟩ = none := by
    intro m
    cases m <;> rfl
  rw [findPage, hin, pageCandidates_eq (by simp), hparent, Option.bind_some, habove]
  cases (templates []).find? (Storage.isPresent site.store) <;> rfl

/-- The page above is one for the directory itself, or else one above the directory that it is in. -/
theorem exists_foundAbove_concat_iff :
    (∃ k, FoundAbove site (ds ++ [s]) (n + 1) k p) ↔
      (templates (ds ++ [s])).find? (Storage.isPresent site.store) = some p ∨
        (templates (ds ++ [s])).find? (Storage.isPresent site.store) = none ∧ ∃ k, FoundAbove site ds n k p := by
  have hlength : (ds ++ [s]).length = ds.length + 1 := by simp
  have hwhole : (ds ++ [s]).take (ds.length + 1) = ds ++ [s] := List.take_of_length_le (Nat.le_of_eq hlength)
  have hpart : ∀ j, j ≤ ds.length → (ds ++ [s]).take j = ds.take j := fun j hj => List.take_append_of_le_length hj
  constructor
  · rintro ⟨k, hle, hwithin, hdeeper, hfound⟩
    rw [hlength] at hle hwithin
    by_cases hk : k = ds.length + 1
    · rw [hk, hwhole] at hfound
      exact .inl hfound
    · have hshort : k ≤ ds.length := by omega
      have hhere := hdeeper (ds.length + 1) (by omega) (Nat.le_of_eq hlength.symm)
      rw [hwhole] at hhere
      rw [hpart k hshort] at hfound
      refine .inr ⟨List.find?_eq_none.2 hhere, k, hshort, by omega, fun j hj hle => ?_, hfound⟩
      rw [← hpart j hle]
      exact hdeeper j hj (by omega)
  · rintro (hhere | ⟨hhere, k, hle, hwithin, hdeeper, hfound⟩)
    · refine ⟨ds.length + 1, Nat.le_of_eq hlength.symm, by omega, fun j hj hle => ?_, ?_⟩
      · omega
      · rwa [hwhole]
    · refine ⟨k, by omega, by omega, fun j hj hjle => ?_, by rwa [hpart k hle]⟩
      by_cases hj' : j ≤ ds.length
      · rw [hpart j hj']
        exact hdeeper j hj hj'
      · obtain rfl : j = ds.length + 1 := by omega
        rw [hwhole]
        exact List.find?_eq_none.1 hhere

/-- The search finds the nearest page above, and nothing else. -/
theorem findPage_eq_some_iff (h : ∀ d ∈ ds, IsName d) :
    site.findPage n (belowPages ds) = some p ↔ ∃ k, FoundAbove site ds n k p := by
  induction n generalizing ds with
  | zero =>
    refine iff_of_false nofun ?_
    rintro ⟨k, hle, hwithin, -, -⟩
    omega
  | succ n ih =>
    rcases List.eq_nil_or_concat ds with rfl | ⟨front, s, rfl⟩
    · rw [findPage_pages]
      constructor
      · intro hfound
        exact ⟨0, Nat.le_refl 0, Nat.succ_pos _, fun j hj hle => absurd hj (by simpa using hle), hfound⟩
      · rintro ⟨k, -, -, -, hfound⟩
        rwa [List.take_nil] at hfound
    · rw [List.concat_eq_append] at *
      have hfront : ∀ u ∈ front, IsName u := fun u hu => h u (List.mem_append_left _ hu)
      rw [findPage_succ h, Option.or_eq_some_iff, ih hfront, exists_foundAbove_concat_iff]

/-- A search that begins with the separator behind the pages is the same. -/
theorem findPage_join (h : ∀ d ∈ ds, IsName d) (n : ℕ) :
    site.findPage n (SitePath.pages.join (ofNames ds)) = site.findPage n (belowPages ds) := by
  by_cases hnil : ds = []
  · subst hnil
    have hin : SitePath.pages.isPrefixOf (SitePath.pages.join (ofNames [])) =
        SitePath.pages.isPrefixOf (belowPages []) := by decide
    have hcandidates : pageCandidates (SitePath.pages.join (ofNames [])) = pageCandidates (belowPages []) := by
      decide +kernel
    have hparent : (SitePath.pages.join (ofNames [])).parent? = (belowPages []).parent? := by decide
    cases n with
    | zero => rfl
    | succ n => rw [findPage, findPage, hin, hcandidates, hparent]
  · have hjoin : SitePath.pages.join (ofNames ds) = belowPages ds :=
      join_ofNames (l := ["pages".toList]) (by simp) (by decide) hnil h
    rw [hjoin]

/-! ## The lookup -/

/-- The name of the page that is looked for first. A stem of a single dot gets no extension. -/
def lookupName (f : Text) : Text :=
  if (splitName f).1 = ['.'] then ['.', '.'] else (splitName f).1 ++ ".html".toList

theorem withExtension_html (hds : ∀ d ∈ ds, IsName d) (hf : IsName f) :
    (belowPages (ds ++ [f])).withExtension "html".toList = belowPages (ds ++ [lookupName f]) := by
  have hall : ∀ u ∈ ("pages".toList :: ds) ++ [f], IsName u := isName_concat (isName_pages hds) hf
  by_cases hdot : (splitName f).1 = ['.']
  · rw [lookupName, if_pos hdot]
    exact withExtension_ofNames_dot (isName_pages hds) hf hdot _
  · rw [lookupName, if_neg hdot]
    exact withExtension_ofNames hall hdot _

/-- The page of the same name first, and then the directories. -/
theorem pageForContent_contentFile (hds : ∀ d ∈ ds, IsName d) (hf : IsName f) :
    site.pageForContent (contentFile ds f) =
      if Storage.isPresent site.store (belowPages (ds ++ [lookupName f])) then .ok (belowPages (ds ++ [lookupName f]))
      else match site.findPage 10 (belowPages ds) with
        | some page => .ok page
        | none => .error (.pageNotFound (contentFile ds f)) := by
  have hall := isName_concat hds hf
  have hrelative : (contentFile ds f).relativeTo SitePath.content = ofNames (ds ++ [f]) :=
    relativeTo_ofNames (l := ["content".toList]) (by decide) (by simp) hall
  have hjoin : SitePath.pages.join (ofNames (ds ++ [f])) = belowPages (ds ++ [f]) :=
    join_ofNames (l := ["pages".toList]) (by simp) (by decide) (by simp) hall
  simp only [pageForContent, hrelative, hjoin, withExtension_html hds hf, parent?_ofNames hall, findPage_join hds]
  rfl

theorem FoundAbove.exists_names (hds : ∀ d ∈ ds, IsName d) (h : FoundAbove site ds n k p) :
    ∃ front s, p = belowPages (front ++ [s]) ∧ (∀ u ∈ front ++ [s], IsName u) ∧
      (front.length < ds.length ∨ s = "[content].html".toList ∨ s = "index.html".toList) := by
  have htake : ∀ d ∈ ds.take k, IsName d := fun d hd => hds d (List.take_subset k ds hd)
  obtain ⟨front, s, heq, hnames, hcase⟩ := exists_names_of_mem_templates htake (List.mem_of_find?_eq_some h.found)
  refine ⟨front, s, heq, hnames, hcase.imp_left fun hlength => ?_⟩
  exact hlength.trans_le (List.length_take_le' k ds)

theorem isName_directPage (hds : ∀ d ∈ ds, IsName d) (hf : IsName f) :
    ∀ u ∈ ds ++ [(splitName f).1 ++ ".html".toList], IsName u :=
  isName_concat hds (isName_html (slash_notMem_stem hf))

/-- The nearest page exists, and it lies below the directory of the pages. -/
theorem Nearest.isPresent_and_names (hds : ∀ d ∈ ds, IsName d) (hf : IsName f) (h : Nearest site ds f p) :
    Storage.isPresent site.store p ∧ ∃ l, l ≠ [] ∧ (∀ u ∈ l, IsName u) ∧ p = belowPages l := by
  cases h with
  | direct hpresent => exact ⟨hpresent, _, by simp, isName_directPage hds hf, rfl⟩
  | above _ habove =>
    obtain ⟨front, s, heq, hnames, -⟩ := habove.exists_names hds
    exact ⟨List.find?_some habove.found, front ++ [s], by simp, hnames, heq⟩

/-- The page of the same name is none of those for the directories. -/
theorem FoundAbove.ne_directPage (hds : ∀ d ∈ ds, IsName d) (hf : IsName f) (hdot : (splitName f).1 = ['.'])
    (h : FoundAbove site ds n k p) : p ≠ directPage ds f := by
  rintro rfl
  obtain ⟨front, s, heq, hnames, hcase⟩ := h.exists_names hds
  have hinj := belowPages_inj (isName_directPage hds hf) hnames heq
  rw [hdot] at hinj
  obtain ⟨hfront, hlast⟩ := List.append_inj' hinj rfl
  rcases hcase with hlength | rfl | rfl
  · rw [hfront] at hlength
    exact Nat.lt_irrefl _ hlength
  · exact absurd hlast (by decide)
  · exact absurd hlast (by decide)

/-- Two dots are no name, so a path that ends with them is not below the directory of the pages. -/
theorem belowPages_dots_ne (hds : ∀ d ∈ ds, IsName d) {l : List Text} (hl : ∀ u ∈ l, IsName u) :
    belowPages (ds ++ [['.', '.']]) ≠ belowPages l := by
  intro heq
  have hslash : ∀ u ∈ "pages".toList :: (ds ++ [['.', '.']]), '/' ∉ u :=
    List.forall_mem_cons.2 ⟨by decide, List.forall_mem_append.2 ⟨fun u hu => (hds u hu).slash_notMem, by decide⟩⟩
  have hsplit : Text.split '/' (belowPages (ds ++ [['.', '.']])).text = "pages".toList :: (ds ++ [['.', '.']]) :=
    Text.split_join (List.cons_ne_nil _ _) hslash
  rw [heq, belowPages, split_ofNames (List.cons_ne_nil _ _) (isName_pages hl)] at hsplit
  have hmem : ['.', '.'] ∈ l := by
    rw [(List.cons.inj hsplit).2]
    simp
  exact (hl _ hmem).ne_parent rfl

/-- Where the page of the same name is looked for as it is called, or neither that page nor what is looked for in its
place exists, the lookup is right. -/
theorem pageForContent_of_lookup (hds : ∀ d ∈ ds, IsName d) (hf : IsName f)
    (h : (splitName f).1 = ['.'] → ¬ Storage.isPresent site.store (directPage ds f) ∧
      ¬ Storage.isPresent site.store (belowPages (ds ++ [['.', '.']]))) :
    (∀ p, site.pageForContent (contentFile ds f) = .ok p ↔ Nearest site ds f p) ∧
      (site.pageForContent (contentFile ds f) = .error (.pageNotFound (contentFile ds f)) ↔
        ∀ p, ¬ Nearest site ds f p) := by
  rw [pageForContent_contentFile hds hf]
  have hlookup : Storage.isPresent site.store (belowPages (ds ++ [lookupName f])) →
      belowPages (ds ++ [lookupName f]) = directPage ds f := by
    intro hpresent
    by_cases hdot : (splitName f).1 = ['.']
    · rw [lookupName, if_pos hdot] at hpresent
      exact absurd hpresent (h hdot).2
    · rw [lookupName, if_neg hdot, directPage]
  by_cases hpresent : Storage.isPresent site.store (belowPages (ds ++ [lookupName f]))
  · have hdirect : Storage.isPresent site.store (directPage ds f) := hlookup hpresent ▸ hpresent
    rw [if_pos hpresent, hlookup hpresent]
    constructor
    · intro p
      constructor
      · intro heq
        obtain rfl := Except.ok.inj heq
        exact .direct hdirect
      · intro hnearest
        cases hnearest with
        | direct => rfl
        | above habsent => exact absurd hdirect habsent
    · exact iff_of_false nofun fun hnone => hnone _ (.direct hdirect)
  · have hdirect : ¬ Storage.isPresent site.store (directPage ds f) := by
      by_cases hdot : (splitName f).1 = ['.']
      · exact (h hdot).1
      · rwa [lookupName, if_neg hdot] at hpresent
    have hsearch : ∀ p, Nearest site ds f p ↔ site.findPage 10 (belowPages ds) = some p := by
      intro p
      rw [findPage_eq_some_iff hds]
      constructor
      · intro hnearest
        cases hnearest with
        | direct hmem => exact absurd hmem hdirect
        | above _ habove => exact ⟨_, habove⟩
      · rintro ⟨k, habove⟩
        exact .above hdirect habove
    simp only [if_neg hpresent, hsearch]
    cases site.findPage 10 (belowPages ds) <;> simp

/-- The lookup finds the nearest page and nothing else, if and only if the stem of the file is no single dot or neither
its page nor what is looked for in the place of it exists. What is found always exists, and the nearest page lies below
the directory of the pages. -/
theorem pageForContent_nearest_iff (hds : ∀ d ∈ ds, IsName d) (hf : IsName f) :
    (((∀ p, site.pageForContent (contentFile ds f) = .ok p ↔ Nearest site ds f p) ∧
          (site.pageForContent (contentFile ds f) = .error (.pageNotFound (contentFile ds f)) ↔
            ∀ p, ¬ Nearest site ds f p)) ↔
        ((splitName f).1 = ['.'] → ¬ Storage.isPresent site.store (directPage ds f) ∧
          ¬ Storage.isPresent site.store (belowPages (ds ++ [['.', '.']])))) ∧
      (∀ p, site.pageForContent (contentFile ds f) = .ok p → Storage.isPresent site.store p) ∧
      ∀ p, Nearest site ds f p →
        Storage.isPresent site.store p ∧ ∃ l, l ≠ [] ∧ (∀ u ∈ l, IsName u) ∧ p = belowPages l := by
  refine ⟨⟨?_, pageForContent_of_lookup hds hf⟩, ?_, fun p => Nearest.isPresent_and_names hds hf⟩
  · rintro ⟨hok, -⟩ hdot
    have hcode : site.pageForContent (contentFile ds f) = _ := pageForContent_contentFile hds hf
    rw [lookupName, if_pos hdot] at hcode
    have hdots : ¬ Storage.isPresent site.store (belowPages (ds ++ [['.', '.']])) := by
      intro hpresent
      rw [if_pos hpresent] at hcode
      obtain ⟨-, l, -, hl, heq⟩ := ((hok _).1 hcode).isPresent_and_names hds hf
      exact belowPages_dots_ne hds hl heq
    refine ⟨fun hpresent => ?_, hdots⟩
    have hfound := (hok _).2 (.direct hpresent)
    rw [hcode, if_neg hdots] at hfound
    split at hfound
    · next page hpage =>
      obtain rfl := Except.ok.inj hfound
      obtain ⟨k, habove⟩ := (findPage_eq_some_iff hds).1 hpage
      exact habove.ne_directPage hds hf hdot rfl
    · cases hfound
  · intro p hfound
    rw [pageForContent_contentFile hds hf] at hfound
    split at hfound
    · next hpresent => exact Except.ok.inj hfound ▸ hpresent
    · split at hfound
      · next page hpage =>
        obtain ⟨k, habove⟩ := (findPage_eq_some_iff hds).1 hpage
        exact Except.ok.inj hfound ▸ List.find?_some habove.found
      · cases hfound

/-- A site with these files and nothing in them. -/
def withFiles (files : List Text) : Site MemoryStore :=
  .ofStore (.ofList (files.map fun t => (⟨t⟩, []))) SiteSettings.default

/-- Ten directories, one in the other. -/
def deepDirectories : List Text := "a.b".toList :: List.replicate 9 "c".toList

def deepSite : Site MemoryStore := withFiles ["pages/a.b.html".toList, "pages/index.html".toList]

/-- The last directory that is searched has a page beside it. The page in the directory above is not reached. -/
theorem pageForContent_tenth :
    deepSite.pageForContent ⟨"content/a.b/c/c/c/c/c/c/c/c/c/d.e.md".toList⟩ = .ok ⟨"pages/a.b.html".toList⟩ := by
  have hds : ∀ d ∈ deepDirectories, IsName d := by decide
  have hf : IsName "d.e.md".toList := by decide
  have hdot : (splitName "d.e.md".toList).1 ≠ ['.'] := by decide
  have hdirect : ¬ Storage.isPresent deepSite.store (directPage deepDirectories "d.e.md".toList) := by decide +kernel
  have hdeeper : ∀ j < 11, 1 < j → ∀ q ∈ templates (deepDirectories.take j), ¬ Storage.isPresent deepSite.store q := by
    decide +kernel
  have habove : FoundAbove deepSite deepDirectories 10 1 ⟨"pages/a.b.html".toList⟩ :=
    ⟨by decide, by decide, fun j hj hle => hdeeper j (Nat.lt_succ_of_le hle) hj, by decide +kernel⟩
  have hnearest : Nearest deepSite deepDirectories "d.e.md".toList ⟨"pages/a.b.html".toList⟩ := .above hdirect habove
  exact (((pageForContent_nearest_iff hds hf).1.2 fun h => absurd h hdot).1 _).2 hnearest

/-- The page of the file `..md` is `..html`, but two dots without it are looked for. -/
theorem pageForContent_dot :
    Nearest (withFiles ["pages/..html".toList]) [] "..md".toList ⟨"pages/..html".toList⟩ ∧
      (withFiles ["pages/..html".toList]).pageForContent ⟨"content/..md".toList⟩ =
        .error (.pageNotFound ⟨"content/..md".toList⟩) := by
  have hpresent : Storage.isPresent (withFiles ["pages/..html".toList]).store (directPage [] "..md".toList) := by
    decide +kernel
  exact ⟨.direct hpresent, rfl⟩

end Pagewright.Site
