import Pagewright.Proofs.Loop.Rounds
import Pagewright.Proofs.Site.Work
import Pagewright.Proofs.Template.Placeholder
import Pagewright.Site.Page

/-!
# The text of a file on a page

A dump is replaced by the text of a file, escaped for HTML. The escapes can be undone
(`unescapeHtml_escapeHtml`), but braces are not among them, and the placeholders for collections and for
global contents are looked for after the dump: the text stays as it is on every site exactly if no such
placeholder begins in it (`Site.resolve_eq_self_iff`).
-/

namespace Pagewright

/-! ## Entities -/

/-- What stands for a character in HTML, and the character. -/
def entities : List (Text × Char) :=
  [("&amp;".toList, '&'), ("&lt;".toList, '<'), ("&gt;".toList, '>'), ("&quot;".toList, '"'),
    ("&#039;".toList, '\'')]

/-- An entity at the start of a text: its character, and what follows. -/
def entity? (t : Text) : Option (Text × Text) :=
  entities.findSome? fun (e, c) => (Text.after? e t).map fun rest => ([c], rest)

/-- A text with the entities undone. -/
def unescapeHtml : Text → Text := Text.substitute entity?

private theorem entity?_of_ne {c : Char} (h : c ≠ '&') (t : Text) : entity? (c :: t) = none := by
  simp [entity?, entities, Text.after?, Ne.symm h]

private theorem unescapeHtml_entity {e rest : Text} {c : Char} (h : entity? (e ++ rest) = some ([c], rest))
    (he : e ≠ []) : unescapeHtml (e ++ rest) = c :: unescapeHtml rest := by
  obtain ⟨d, e, rfl⟩ := List.exists_cons_of_ne_nil he
  exact Text.substitute_cons_some h (by simp)

/-- Undoing the entities gives back the text that was escaped. -/
theorem unescapeHtml_escapeHtml (t : Text) : unescapeHtml (escapeHtml t) = t := by
  induction t with
  | nil => rw [escapeHtml, List.flatMap_nil, unescapeHtml, Text.substitute]
  | cons c t ih =>
    have hcons : escapeHtml (c :: t) = escapeHtmlChar c ++ escapeHtml t := List.flatMap_cons
    rw [hcons]
    by_cases h : c ∈ ['&', '<', '>', '"', '\'']
    · have hentity : entity? (escapeHtmlChar c ++ escapeHtml t) = some ([c], escapeHtml t) := by
        simp only [List.mem_cons, List.not_mem_nil, or_false] at h
        rcases h with rfl | rfl | rfl | rfl | rfl <;>
          simp [escapeHtmlChar, entity?, entities, Text.after?]
      have hne : escapeHtmlChar c ≠ [] := by
        unfold escapeHtmlChar
        repeat' split
        all_goals simp
      rw [unescapeHtml_entity hentity hne, ih]
    · simp only [List.mem_cons, List.not_mem_nil, or_false, not_or] at h
      have hchar : escapeHtmlChar c = [c] := by simp [escapeHtmlChar, h]
      rw [hchar, List.singleton_append, unescapeHtml,
        Text.substitute_cons_none (entity?_of_ne h.1 _), ← unescapeHtml, ih]

/-! ## Dumps -/

/-- The text of a dump. -/
def dumpText (path : Text) : Text := '\x7b' :: ("dump('".toList ++ path ++ "')\x7d".toList)

/-- Can the path be dumped? It must not be empty, and has no quotes. -/
def IsDumpPath (path : Text) : Prop := path ≠ [] ∧ ∀ c ∈ path, isQuote c = false

/-- A dump is read back. -/
theorem dump?_dumpText {path : Text} (h : IsDumpPath path) (rest : Text) :
    dump? (dumpText path ++ rest) = some (path, rest) := by
  have hall : ∀ c ∈ path, (!isQuote c) = true := fun c hc => by simp [h.2 c hc]
  have htext : dumpText path ++ rest = "\x7bdump(".toList ++ '\'' :: (path ++ '\'' ::
      (")\x7d".toList ++ rest)) := by
    unfold dumpText
    simp
  have hstop : (!isQuote '\'') = false := by decide
  have htake := Text.takeWhile_append_cons hall hstop (")\x7d".toList ++ rest)
  have hdrop := Text.dropWhile_append_cons hall hstop (")\x7d".toList ++ rest)
  have hquote : isQuote '\'' = true := by decide
  have hempty : path.isEmpty = false := by simpa using h.1
  rw [htext, dump?, Text.after?_append_self]
  simp only [Option.bind_eq_bind, Option.bind_some, htake, hdrop, hquote, hempty,
    Text.after?_append_self]
  rfl

namespace Site

variable {σ : Type} [Storage σ]

private theorem resolveDumps_eq (site : Site σ) (t : Text) :
    site.resolveDumps t =
      Text.substitute (fun s => (dump? s).map fun found => (site.dumped found.1, found.2)) t := rfl

/-- A single dump is replaced by the text of its file. -/
theorem resolveDumps_append (site : Site σ) {path content pre post : Text} (hpath : IsDumpPath path)
    (hread : Storage.read site.store ⟨path⟩ = .ok content)
    (hpre : Text.Free (fun s => dump? (s ++ (dumpText path ++ post))) pre)
    (hpost : Text.Free dump? post) :
    site.resolveDumps (pre ++ (dumpText path ++ post)) = pre ++ (escapeHtml content ++ post) := by
  have hdump : site.dumped path = escapeHtml content := by simp [dumped, hread]
  have hstep : (dump? (dumpText path ++ post)).map (fun found => (site.dumped found.1, found.2)) =
      some (site.dumped path, post) := by
    rw [dump?_dumpText hpath post]
    rfl
  have hfront : ∀ s, s <:+ pre → s ≠ [] → (dump? (s ++ (dumpText path ++ post))).map
      (fun found => (site.dumped found.1, found.2)) = none := fun s hs hn =>
    Option.map_eq_none_iff.2 (hpre s hs hn)
  have hback : Text.Free (fun s => (dump? s).map fun found => (site.dumped found.1, found.2)) post :=
    fun s hs hn => Option.map_eq_none_iff.2 (hpost s hs hn)
  rw [resolveDumps_eq, Text.substitute_append_left hfront, dumpText, List.cons_append,
    Text.substitute_cons_some hstep (by simp; omega), Text.substitute_of_free hback, hdump]

end Site

/-! ## Placeholders that are looked for later -/

theorem length_lt_of_collectionJson? {t name rest : Text}
    (h : collectionJson? t = some (name, rest)) : rest.length < t.length := by
  obtain ⟨r, hr, h⟩ := Option.bind_eq_some_iff.1 h
  obtain ⟨⟨inner, rest'⟩, hinner, h⟩ := Option.bind_eq_some_iff.1 h
  obtain ⟨reversed, -, h⟩ := Option.bind_eq_some_iff.1 h
  split at h
  · simp at h
  · simp only [Option.some.injEq, Prod.mk.injEq] at h
    obtain ⟨-, rfl⟩ := h
    rw [Text.after?_eq_some_iff.1 hr, OpenTag.splitOnce?_eq_append hinner]
    simp only [List.length_append, List.length_cons]
    omega

/-- The fallback of a placeholder for global contents and what follows it are shorter than what was
read. -/
theorem length_lt_of_parse?_global {t rest : Text} {g : GlobalReference}
    (h : GlobalReference.parse? t = some (g, rest)) :
    (g.fallback.getD []).length + rest.length < t.length := by
  have htail : ∀ {r : Text} {written : Option Text} {rest : Text},
      Placeholder.tail? r = some (written, rest) →
        (written.getD []).length + rest.length < r.length := fun {r written rest} ht => by
    obtain ⟨u, rfl, -, hw⟩ := Placeholder.eq_append_of_tail? ht
    have := hw.length_le
    simp only [List.length_append, List.length_cons]
    omega
  obtain ⟨r, hr, h⟩ := Option.bind_eq_some_iff.1 h
  have hlen : r.length ≤ t.length := Text.length_le_of_after? hr
  have hdrop := Text.length_dropWhile_le isGlobalNameChar r
  simp only at h
  split at h
  · simp at h
  · split at h
    · next r' hr' =>
      rw [hr', List.length_cons] at hdrop
      split at h
      · simp at h
      · obtain ⟨⟨written, rest'⟩, ht, h⟩ := Option.bind_eq_some_iff.1 h
        simp only [Option.pure_def, Option.some.injEq, Prod.mk.injEq] at h
        obtain ⟨rfl, rfl⟩ := h
        have := htail ht
        have := Text.length_dropWhile_le Placeholder.isPathChar r'
        simp only at *
        omega
    · obtain ⟨⟨written, rest'⟩, ht, h⟩ := Option.bind_eq_some_iff.1 h
      simp only [Option.pure_def, Option.some.injEq, Prod.mk.injEq] at h
      obtain ⟨rfl, rfl⟩ := h
      have := htail ht
      simp only at *
      omega

namespace Site

variable {σ : Type} [Storage σ] {t : Text}

theorem resolveCollections_of_free (site : Site σ) (h : Text.Free collectionJson? t) :
    site.resolveCollections t = .ok t :=
  Text.substituteM_of_free fun s hs hn => Option.map_eq_none_iff.2 (h s hs hn)

theorem resolveGlobals_of_free (site : Site σ) (h : Text.Free GlobalReference.parse? t) :
    site.resolveGlobals t = t :=
  Text.substitute_of_free fun s hs hn => Option.map_eq_none_iff.2 (h s hs hn)

theorem free_of_resolveCollections_emptySite {u : Text}
    (h : emptySite.resolveCollections t = .ok u) : Text.Free collectionJson? t := by
  have hfree := Text.free_of_substituteM_eq_ok (fun s out rest hs => ?_) (fun s out rest hs => ?_) h
  · exact fun s hs hn => Option.map_eq_none_iff.1 (hfree s hs hn)
  · obtain ⟨⟨name, rest'⟩, -, he⟩ := Option.map_eq_some_iff.1 hs
    simp only [Prod.mk.injEq] at he
    exact ⟨_, he.1.symm⟩
  · obtain ⟨⟨name, rest'⟩, hc, he⟩ := Option.map_eq_some_iff.1 hs
    simp only [Prod.mk.injEq] at he
    exact he.2 ▸ length_lt_of_collectionJson? hc

theorem free_of_resolveGlobals_emptySite (h : emptySite.resolveGlobals t = t) :
    Text.Free GlobalReference.parse? t := by
  have hfree := Text.free_of_substitute_eq_self (fun s out rest hs => ?_) h
  · exact fun s hs hn => Option.map_eq_none_iff.1 (hfree s hs hn)
  · obtain ⟨⟨g, rest'⟩, hg, he⟩ := Option.map_eq_some_iff.1 hs
    simp only [Prod.mk.injEq] at he
    obtain ⟨rfl, rfl⟩ := he
    have hlt := length_lt_of_parse?_global hg
    have hfallback : ((g.fallback.map fallbackText).getD []).length ≤ (g.fallback.getD []).length := by
      cases g.fallback with
      | none => exact le_rfl
      | some w => exact (fallbackText_sublist w).length_le
    have hnone : emptySite.globalText? g = none := rfl
    rw [hnone, Option.getD_none]
    omega

/-- A text comes through the last two passes unchanged on every site exactly if no placeholder for a
collection or for global contents begins in it. -/
theorem resolve_eq_self_iff (t : Text) :
    (∀ site : Site MemoryStore, (site.resolveCollections t).map site.resolveGlobals = .ok t) ↔
      Text.Free collectionJson? t ∧ Text.Free GlobalReference.parse? t := by
  constructor
  · intro h
    have hempty := h emptySite
    cases hc : emptySite.resolveCollections t with
    | error err => simp [hc, Except.map] at hempty
    | ok u =>
      have hfree := free_of_resolveCollections_emptySite hc
      have hu : u = t := by simpa [hc] using resolveCollections_of_free emptySite hfree
      subst hu
      refine ⟨hfree, free_of_resolveGlobals_emptySite ?_⟩
      simpa [hc, Except.map] using hempty
  · rintro ⟨hcollections, hglobals⟩ site
    rw [resolveCollections_of_free site hcollections, Except.map, resolveGlobals_of_free site hglobals]

/-! ## A page with a dump -/

/-- A page on which the passes up to the dumps find one dump, and nothing else. -/
structure OnlyDump (path pre post : Text) : Prop where
  stylesheet : ¬ "\x7btailwindcss\x7d".toList <:+: pre ++ (dumpText path ++ post)
  addresses : Text.Free Shortcode.address? (pre ++ (dumpText path ++ post))
  loops : Element.find? Loop.tag (pre ++ (dumpText path ++ post)) = none
  before : Text.Free (fun s => dump? (s ++ (dumpText path ++ post))) pre
  behind : Text.Free dump? post

theorem expand_of_free (site : Site σ) (hmark : ¬ "\x7btailwindcss\x7d".toList <:+: t)
    (haddress : Text.Free Shortcode.address? t) : Shortcode.expand site t = t := by
  rw [Shortcode.expand, Text.replaceFirst_of_not_infix hmark, Shortcode.expandAddresses,
    Text.substitute_of_free fun s hs hn => Option.map_eq_none_iff.2 (haddress s hs hn)]

theorem materializeLoops_of_find?_eq_none (h : Element.find? Loop.tag t = none) (site : Site σ) :
    materializeLoops t site = some (.ok t, site) := by
  rw [materializeLoops, List.attach_congr (pieces_of_find?_eq_none h)]
  simp only [List.attach_cons, List.attach_nil, List.map_cons, List.map_nil, List.mapM_cons,
    List.mapM_nil, bind_pure_comp, map_pure]
  simp

variable {site : Site σ} {frontmatter : Option Fields} {p : Path} {page path content pre post : Text}

/-- A page with a dump is the page with the text of the file, as the last two passes leave it. -/
theorem processFile_of_onlyDump (hpage : site.loadPage p = .ok page)
    (hcomposed : site.composeLayout page p frontmatter = .ok (some (pre ++ (dumpText path ++ post))))
    (hpath : IsDumpPath path) (hread : Storage.read site.store ⟨path⟩ = .ok content)
    (honly : OnlyDump path pre post) :
    processFile p frontmatter site =
      some ((site.resolveCollections (pre ++ (escapeHtml content ++ post))).map site.resolveGlobals,
        site) := by
  have hfree : LoopFree (pre ++ (dumpText path ++ post)) := fun e he => by
    rw [pieces_of_find?_eq_none honly.loops] at he
    simp at he
  have hpageStep : look (fun site => site.loadPage p) site = some (.ok page, site) := by
    rw [Work.look_apply, hpage]
  have hcomposeStep : look (fun site => site.composeLayout page p frontmatter) site =
      some (.ok (some (pre ++ (dumpText path ++ post))), site) := by
    rw [Work.look_apply, hcomposed]
  have hmaterialize :
      materializeLoops (Shortcode.expand site (pre ++ (dumpText path ++ post))) site =
        some (.ok (pre ++ (dumpText path ++ post)), site) := by
    rw [expand_of_free site honly.stylesheet honly.addresses]
    exact materializeLoops_of_find?_eq_none honly.loops site
  have hloops : watch (fun site => site.expandLoops frontmatter (pre ++ (dumpText path ++ post))) site =
      some (.ok (pre ++ (dumpText path ++ post)), site) := by
    rw [Work.watch_apply, expandLoops_of_loopFree hfree]
    rfl
  have hget : (get : Work σ (Site σ)) site = some (.ok site, site) := rfl
  unfold processFile
  rw [Work.bind_of_ok hpageStep, Work.bind_of_ok hcomposeStep]
  simp only
  rw [Work.bind_of_ok hget, Work.bind_of_ok hmaterialize, Work.bind_of_ok hloops, Work.look_apply,
    resolveDumps_append site hpath hread honly.before honly.behind]
  cases site.resolveCollections (pre ++ (escapeHtml content ++ post)) <;> rfl

/-- The text of a file is put on a page as it is, escaped for HTML, if and only if the last two passes leave
it alone; that they do on every site means that no placeholder for a collection or for global contents
begins in it. Undoing the escapes gives back the text of the file. -/
theorem processFile_dump_iff (hpage : site.loadPage p = .ok page)
    (hcomposed : site.composeLayout page p frontmatter = .ok (some (pre ++ (dumpText path ++ post))))
    (hpath : IsDumpPath path) (hread : Storage.read site.store ⟨path⟩ = .ok content)
    (honly : OnlyDump path pre post) :
    (processFile p frontmatter site = some (.ok (pre ++ (escapeHtml content ++ post)), site) ↔
        (site.resolveCollections (pre ++ (escapeHtml content ++ post))).map site.resolveGlobals =
          .ok (pre ++ (escapeHtml content ++ post))) ∧
      ((∀ other : Site MemoryStore,
          (other.resolveCollections (pre ++ (escapeHtml content ++ post))).map other.resolveGlobals =
            .ok (pre ++ (escapeHtml content ++ post))) ↔
        Text.Free collectionJson? (pre ++ (escapeHtml content ++ post)) ∧
          Text.Free GlobalReference.parse? (pre ++ (escapeHtml content ++ post))) ∧
      (Text.Free collectionJson? (pre ++ (escapeHtml content ++ post)) →
        Text.Free GlobalReference.parse? (pre ++ (escapeHtml content ++ post)) →
          processFile p frontmatter site = some (.ok (pre ++ (escapeHtml content ++ post)), site)) ∧
      unescapeHtml (escapeHtml content) = content := by
  have hrun := processFile_of_onlyDump hpage hcomposed hpath hread honly
  refine ⟨?_, resolve_eq_self_iff _, fun hcollections hglobals => ?_, unescapeHtml_escapeHtml content⟩
  · rw [hrun, Option.some.injEq, Prod.mk.injEq, and_iff_left rfl]
  · rw [hrun, resolveCollections_of_free site hcollections, Except.map,
      resolveGlobals_of_free site hglobals]

/-! ## A site with a dump -/

/-- A site with a page that dumps a file of the given text. -/
def dumpSite (content : Text) : Site MemoryStore :=
  .ofStore (.ofList [(⟨"pages/index.html".toList⟩, "<layout src=\"a.html\"></layout>".toList),
    (⟨"layouts/a.html".toList⟩, "<pre>".toList ++ (dumpText "c.txt".toList ++ "</pre>".toList)),
    (⟨"c.txt".toList⟩, content)]) default

/-- The page of the site. -/
def dumpPage : Path := ⟨"pages/index.html".toList⟩

/-- The text of the page. -/
def dumpPageText : Text := "<layout src=\"a.html\"></layout>".toList

theorem isDumpPath_file : IsDumpPath "c.txt".toList :=
  ⟨by decide, by decide⟩

theorem read_dumpSite (content : Text) :
    Storage.read (dumpSite content).store ⟨"c.txt".toList⟩ = .ok content := rfl

theorem onlyDump_dumpSite : OnlyDump "c.txt".toList "<pre>".toList "</pre>".toList :=
  ⟨by decide +kernel, by decide +kernel, by decide +kernel, by decide +kernel, by decide +kernel⟩

theorem processFile_dump_of_markup :
    processFile dumpPage none (dumpSite "<b>".toList) =
        some (.ok "<pre>&lt;b&gt;</pre>".toList, dumpSite "<b>".toList) ∧
      unescapeHtml (escapeHtml "<b>".toList) = "<b>".toList := by
  have hpage : (dumpSite "<b>".toList).loadPage dumpPage = .ok dumpPageText := by decide +kernel
  have hcomposed : (dumpSite "<b>".toList).composeLayout dumpPageText dumpPage none =
      .ok (some ("<pre>".toList ++ (dumpText "c.txt".toList ++ "</pre>".toList))) := by decide +kernel
  have h := processFile_dump_iff hpage hcomposed isDumpPath_file (read_dumpSite _) onlyDump_dumpSite
  exact ⟨h.2.2.1 (by decide +kernel) (by decide +kernel), h.2.2.2⟩

/-- A placeholder in the text of a file is taken for one of the page. -/
theorem processFile_dump_of_placeholder :
    processFile dumpPage none (dumpSite "\x7bglobal.x\x7d".toList) =
        some (.ok "<pre></pre>".toList, dumpSite "\x7bglobal.x\x7d".toList) ∧
      "<pre></pre>".toList ≠
        "<pre>".toList ++ (escapeHtml "\x7bglobal.x\x7d".toList ++ "</pre>".toList) := by
  have hpage : (dumpSite "\x7bglobal.x\x7d".toList).loadPage dumpPage = .ok dumpPageText := by
    decide +kernel
  have hcomposed : (dumpSite "\x7bglobal.x\x7d".toList).composeLayout dumpPageText dumpPage none =
      .ok (some ("<pre>".toList ++ (dumpText "c.txt".toList ++ "</pre>".toList))) := by decide +kernel
  have hresolved : ((dumpSite "\x7bglobal.x\x7d".toList).resolveCollections ("<pre>".toList ++
      (escapeHtml "\x7bglobal.x\x7d".toList ++ "</pre>".toList))).map
        (dumpSite "\x7bglobal.x\x7d".toList).resolveGlobals = .ok "<pre></pre>".toList := by
    decide +kernel
  have hrun := processFile_of_onlyDump hpage hcomposed isDumpPath_file (read_dumpSite _)
    onlyDump_dumpSite
  exact ⟨by rw [hrun, hresolved], by decide +kernel⟩

end Site

end Pagewright
