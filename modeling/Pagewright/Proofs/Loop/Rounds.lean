import Pagewright.Proofs.Loop.Termination

/-!
# What a loop is replaced by

A loop is replaced by what the expansion makes of its rounds. That is the rounds themselves, one after the
other, when no round holds a loop (`Site.LoopFree`); but the rounds are read again with the data in them,
and a loop in an item is expanded like one in the body.
-/

namespace Pagewright.Site

open Loop

variable {σ : Type} [Storage σ] {site : Site σ} {frontmatter : Option Fields} {t : Text}

/-- Is the element a loop? It is when it has a body and names a collection. -/
def IsLoop (e : Element) : Prop := e.body?.isSome ∧ (e.attribute? "collection".toList).isSome

/-- A text without loops. -/
def LoopFree (t : Text) : Prop := ∀ e, .element e ∈ pieces tag t → ¬ IsLoop e

theorem rounds?_of_not_isLoop {e : Element} (h : ¬ IsLoop e) :
    site.rounds? frontmatter e = .ok none := by
  unfold rounds?
  split
  · next hbody hname => exact absurd ⟨by rw [hbody]; rfl, by rw [hname]; rfl⟩ h
  · rfl

theorem loopFree_of_notMem (h : '<' ∉ t) : LoopFree t := by
  intro e he
  rw [pieces_of_find?_eq_none (Element.find?_eq_none_of_notMem h)] at he
  simp at he

/-- A text without loops stays as it is, on any stack. -/
theorem expandLoopsWithin_of_loopFree (h : LoopFree t) (n : ℕ) :
    site.expandLoopsWithin frontmatter n t = some (.ok t) := by
  have hpieces : ∀ f, inSequence (site.expandPiece frontmatter f) (pieces tag t) = some (.ok t) := by
    refine fun f => inSequence_eq_ok_iff.2 ⟨(pieces tag t).map Piece.source, ?_, ?_⟩
    · rw [List.map_map]
      refine List.map_congr_left fun p hp => ?_
      cases p with
      | text u => rfl
      | element e => simp [expandPiece, rounds?_of_not_isLoop (h e hp), Piece.source]
    · rw [← List.flatMap_def, flatMap_source_pieces]
  cases n <;> exact hpieces _

theorem expandLoops_of_loopFree (h : LoopFree t) : site.expandLoops frontmatter t = some (.ok t) :=
  expandLoopsWithin_of_loopFree h _

/-- Where neither the body nor the data has a `<`, no round holds a loop. -/
theorem loopFree_of_mem_roundsOf {body scopeName round : Text} {items : List Json} (hbody : '<' ∉ body)
    (hitems : ∀ item ∈ items, ∀ s ∈ item.strings, '<' ∉ s)
    (h : round ∈ roundsOf body items scopeName) : LoopFree round := by
  obtain ⟨n, hn, rfl⟩ := List.mem_mapIdx.1 h
  have hcount := count_renderItem_le (hitems _ (List.getElem_mem hn)) body n scopeName
  rw [List.count_eq_zero.2 hbody, Nat.le_zero] at hcount
  exact loopFree_of_notMem (List.count_eq_zero.1 hcount)

/-! ## Texts that stay as they are -/

/-- A site without files and without collections. -/
def emptySite : Site MemoryStore := .ofStore .empty default

/-- Without data, a loop fails or is left out. -/
theorem rounds?_emptySite {e : Element} (h : IsLoop e) :
    (∃ err, emptySite.rounds? none e = .error err) ∨ emptySite.rounds? none e = .ok (some []) := by
  obtain ⟨hbody, hname⟩ := h
  obtain ⟨body, hbody⟩ := Option.isSome_iff_exists.1 hbody
  obtain ⟨name, hname⟩ := Option.isSome_iff_exists.1 hname
  have hdata : (∃ err, emptySite.loopData? none name = .error err) ∨
      emptySite.loopData? none name = .ok none := by
    unfold loopData?
    split
    · exact Or.inr rfl
    · exact Or.inl ⟨_, rfl⟩
  unfold rounds? loopItems?
  simp only [hbody, hname]
  rcases hdata with ⟨err, herr⟩ | hnone
  · exact Or.inl ⟨err, by rw [herr]; rfl⟩
  · refine Or.inr ?_
    rw [hnone]
    cases e.attribute? "root".toList <;> rfl

/-- Without data, a piece does not grow, and a loop is left out. -/
private theorem length_le_of_expandPiece_emptySite {f : Text → Option (Except TemplateError Text)}
    {p : Piece} {out : Text} (h : emptySite.expandPiece none f p = some (.ok out)) :
    out.length ≤ p.source.length ∧ ∀ e, p = .element e → IsLoop e → out = [] := by
  cases p with
  | text t =>
    simp only [expandPiece, Option.some.injEq, Except.ok.injEq] at h
    exact ⟨by rw [← h]; exact le_rfl, fun e he => by simp at he⟩
  | element e =>
    by_cases hloop : IsLoop e
    · have hout : out = [] := by
        rcases rounds?_emptySite hloop with ⟨err, herr⟩ | hnil
        · simp [expandPiece, herr] at h
        · simpa [expandPiece, hnil, eq_comm] using h
      exact ⟨by simp [hout], fun _ _ _ => hout⟩
    · simp only [expandPiece, rounds?_of_not_isLoop hloop, Option.some.injEq, Except.ok.injEq] at h
      refine ⟨by rw [← h]; exact le_rfl, fun e' he hloop' => ?_⟩
      rw [Piece.element.injEq] at he
      exact absurd (he ▸ hloop') hloop

/-- Without data, the pieces of a text do not grow together, and a loop among them is left out. -/
private theorem length_flatten_le_of_emptySite {f : Text → Option (Except TemplateError Text)}
    {ps : List Piece} {outs : List Text}
    (h : ps.map (emptySite.expandPiece none f) = outs.map fun out => some (.ok out)) :
    outs.flatten.length ≤ (ps.flatMap Piece.source).length ∧
      ∀ e, .element e ∈ ps → IsLoop e →
        outs.flatten.length + e.text.length ≤ (ps.flatMap Piece.source).length := by
  induction ps generalizing outs with
  | nil =>
    rw [List.map_nil, eq_comm, List.map_eq_nil_iff] at h
    simp [h]
  | cons p ps ih =>
    cases outs with
    | nil => simp at h
    | cons out outs =>
      rw [List.map_cons, List.map_cons, List.cons.injEq] at h
      obtain ⟨hle, hleft⟩ := length_le_of_expandPiece_emptySite h.1
      obtain ⟨ihle, ihleft⟩ := ih h.2
      rw [List.flatten_cons, List.flatMap_cons, List.length_append, List.length_append]
      refine ⟨Nat.add_le_add hle ihle, fun e he hloop => ?_⟩
      rcases List.mem_cons.1 he with rfl | he
      · have hsource : (Piece.element e).source = e.text := rfl
        rw [hleft e rfl hloop, List.length_nil, hsource]
        omega
      · have := ihleft e he hloop
        omega

/-- A text stays as it is on every site if and only if it has no loops. -/
theorem expandLoops_eq_self_iff (t : Text) :
    (∀ (site : Site MemoryStore) (frontmatter : Option Fields),
        site.expandLoops frontmatter t = some (.ok t)) ↔ LoopFree t := by
  constructor
  · intro h e he hloop
    have hempty := h emptySite none
    rw [expandLoops, expandLoopsWithin_succ] at hempty
    obtain ⟨outs, hmap, hflat⟩ := inSequence_eq_ok_iff.1 hempty
    have hlen := (length_flatten_le_of_emptySite hmap).2 e he hloop
    rw [hflat, flatMap_source_pieces] at hlen
    have hcount := count_body_lt_of_mem_pieces he
    have := List.count_le_length (a := '<') (l := e.text)
    omega
  · exact fun h site frontmatter => expandLoops_of_loopFree h

/-- The expansion of a loop is its rounds, one after the other, if and only if the expansions of the rounds
put together are the rounds put together; this holds when no round holds a loop, and only then does every
round stay as it is on every site. -/
theorem expandLoops_written_eq_rounds_iff {collection scopeName body : Text} {items : List Json}
    (hc : '"' ∉ collection) (ha : '"' ∉ scopeName) (hb : IsBody body)
    (hdata : site.loopData? frontmatter collection = .ok (some (.array items))) :
    (site.expandLoops frontmatter (written collection scopeName body) =
          some (.ok (roundsOf body items scopeName).flatten) ↔
        ∃ outs : List Text,
          (roundsOf body items scopeName).map (site.expandLoopsWithin frontmatter site.stack) =
              outs.map (fun out => some (.ok out)) ∧
            outs.flatten = (roundsOf body items scopeName).flatten) ∧
      ((∀ round ∈ roundsOf body items scopeName, LoopFree round) →
        site.expandLoops frontmatter (written collection scopeName body) =
          some (.ok (roundsOf body items scopeName).flatten)) ∧
      ((∀ (other : Site MemoryStore) (fields : Option Fields),
          ∀ round ∈ roundsOf body items scopeName,
            other.expandLoops fields round = some (.ok round)) ↔
        ∀ round ∈ roundsOf body items scopeName, LoopFree round) := by
  have heq : site.expandLoops frontmatter (written collection scopeName body) =
      inSequence (site.expandLoopsWithin frontmatter site.stack) (roundsOf body items scopeName) :=
    expandLoopsWithin_written hc ha hb hdata site.stack
  rw [heq]
  refine ⟨inSequence_eq_ok_iff, fun hfree => ?_, fun h round hround => ?_,
    fun hfree other fields round hround => expandLoops_of_loopFree (hfree round hround)⟩
  · exact inSequence_eq_ok_iff.2 ⟨roundsOf body items scopeName,
      List.map_congr_left fun round hround => expandLoopsWithin_of_loopFree (hfree round hround) _,
      rfl⟩
  · exact (expandLoops_eq_self_iff round).1 fun other fields => h other fields round hround

/-! ## Plain items -/

/-- Two items without markup. -/
def plainItems : List Json := [.object [(['x'], .string ['1'])], .object [(['x'], .string ['2'])]]

theorem expandLoops_written_plainItems :
    (roundsOf "\x7ba.x\x7d".toList plainItems ['a']).flatten = "12".toList ∧
      (collectionSite ['c'] plainItems).expandLoops none (written ['c'] ['a'] "\x7ba.x\x7d".toList) =
        some (.ok (roundsOf "\x7ba.x\x7d".toList plainItems ['a']).flatten) :=
  ⟨by decide +kernel,
    (expandLoops_written_eq_rounds_iff (by decide) (by decide) (isBody_of_notMem (by decide))
      (loopData?_collectionSite ['c'] plainItems (by decide))).2.1
      fun _ => loopFree_of_mem_roundsOf (by decide) (by decide)⟩

/-! ## A loop inside of an item -/

/-- A loop over a second collection. -/
def innerLoop : Text := written ['d'] ['d'] "\x7bd.y\x7d".toList

/-- The items of the first collection: one that holds the loop over the second collection. -/
def outerItems : List Json := [.object [(['x'], .string innerLoop)]]

/-- The items of the second collection. -/
def innerItems : List Json := [.object [(['y'], .string ['1'])]]

/-- A site with both collections. -/
def nestedDataSite : Site MemoryStore where
  store := .empty
  settings := default
  collections := [(['c'], outerItems), (['d'], innerItems)]

/-- The text of the item is not put in as it is: the loop in it is expanded. -/
theorem expandLoops_loop_in_item :
    (roundsOf "\x7ba.x\x7d".toList outerItems ['a']).flatten = innerLoop ∧
      nestedDataSite.expandLoops none (written ['c'] ['a'] "\x7ba.x\x7d".toList) = some (.ok ['1']) ∧
      innerLoop ≠ ['1'] :=
  ⟨by decide +kernel, by decide +kernel, by decide +kernel⟩

end Pagewright.Site
