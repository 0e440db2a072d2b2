import Pagewright.Proofs.Loop.Expansion
import Pagewright.Proofs.Template.Element
import Pagewright.Proofs.Template.Placeholder

/-!
# Loops over data without markup

A round is the body of its loop with values of an item filled in. If the data has no `<`, a round has no
more of them than the body, and so fewer than the loop. This is a measure for the expansion of loops, and
says how deep a stack it needs over such data.
-/

namespace Pagewright

/-! ## Blocks -/

private theorem count_flatMap_le {α : Type} {f g : α → Text} {c : Char} {l : List α}
    (h : ∀ x ∈ l, (f x).count c ≤ (g x).count c) : (l.flatMap f).count c ≤ (l.flatMap g).count c := by
  induction l with
  | nil => exact le_rfl
  | cons x l ih =>
    have hx := h x List.mem_cons_self
    have hl := ih fun y hy => h y (List.mem_cons_of_mem x hy)
    rw [List.flatMap_cons, List.flatMap_cons, List.count_append, List.count_append]
    omega

/-- Resolving blocks keeps parts of a text. -/
theorem count_resolveBlocks_le (scope : Fields) (scopeName : Text) (c : Char) (t : Text) :
    (Condition.resolveBlocks scope scopeName t).count c ≤ t.count c := by
  induction t using Condition.resolveBlocks.induct with
  | case1 t ih =>
    have ht : (pieces "If".toList t).attach.flatMap (fun p => p.1.source) = t := by
      rw [← List.flatMap_map, List.attach_map_subtype_val, flatMap_source_pieces]
    rw [Condition.resolveBlocks]
    conv => rhs; rw [← ht]
    refine count_flatMap_le fun ⟨p, hp⟩ _ => ?_
    match p with
    | .text t => exact le_rfl
    | .element e =>
      simp only [Piece.source]
      split
      · exact le_rfl
      · split
        · exact (ih e hp).trans (e.body_infix_text.sublist.count_le c)
        · simp

namespace Loop

/-! ## The body for one item -/

variable {c : Char}

private theorem count_marker (n : Nat) : (marker n).count '<' = 0 := by
  have hdigits : '<' ∉ Text.ofNat n := fun h =>
    absurd (Text.ofNat_subset_bareChars n h) (by decide)
  have htag : '<' ∉ tag := by decide
  refine List.count_eq_zero.2 ?_
  simp [marker, hdigits, htag]

theorem count_replaceFirst_le (p out t : Text) (c : Char) :
    (Text.replaceFirst p out t).count c ≤ t.count c + out.count c := by
  unfold Text.replaceFirst
  split
  · next before rest h =>
    rw [Text.eq_append_of_splitFirst? h]
    simp only [List.count_append]
    omega
  · omega

/-- The loops of a body are put back at most once each. -/
theorem count_unmask_add_count_mask_le (n k : Nat) (t : Text) (ps : List Piece) :
    (unmask n t ps).count '<' + (mask k ps).count '<' ≤
      t.count '<' + (ps.flatMap Piece.source).count '<' := by
  induction ps generalizing n k t with
  | nil => rfl
  | cons p ps ih =>
    rw [List.flatMap_cons, List.count_append]
    cases p with
    | text u =>
      have := ih n k t
      rw [unmask, mask, List.count_append, Piece.source]
      omega
    | element e =>
      have := ih (n + 1) (k + 1) (Text.replaceFirst (marker n) e.text t)
      have hr := count_replaceFirst_le (marker n) e.text t '<'
      rw [unmask, mask, List.count_append, count_marker, Piece.source]
      omega

private theorem verbatim_lt : Json.Verbatim ['<'] := by decide

/-- The scope of an item has only strings of the item, and the name of the number of the round. -/
theorem notMem_scopeOf {item : Json} (h : ∀ s ∈ item.strings, c ∉ s) (hloop : c ∉ "loop".toList)
    (n : Nat) : ∀ s ∈ Json.stringsOfFields (scopeOf item n), c ∉ s := by
  intro s hs
  have hs' := Json.stringsOfFields_insert_subset _ _ _ hs
  simp only [Json.ofNat, Json.strings, List.singleton_append, List.mem_cons] at hs'
  rcases hs' with rfl | hs'
  · exact hloop
  · cases item with
    | object fields => exact h s hs'
    | null | bool | number | string | array => simp [Json.stringsOfFields] at hs'

/-- A round over an item without a `<` has no more of them than the body of the loop. -/
theorem count_renderItem_le {item : Json} (h : ∀ s ∈ item.strings, '<' ∉ s) (body : Text) (n : Nat)
    (scopeName : Text) : (renderItem body item n scopeName).count '<' ≤ body.count '<' := by
  unfold renderItem
  simp only
  set scope := scopeOf item n
  set shown := unmask 0 (Condition.resolveBlocks scope scopeName (mask 0 (pieces tag body)))
    (pieces tag body)
  have hshown : shown.count '<' ≤ body.count '<' := by
    have h1 := count_unmask_add_count_mask_le 0 0
      (Condition.resolveBlocks scope scopeName (mask 0 (pieces tag body))) (pieces tag body)
    have h2 := count_resolveBlocks_le scope scopeName '<' (mask 0 (pieces tag body))
    rw [flatMap_source_pieces] at h1
    simp only [shown]
    omega
  have hdisplay : '<' ∉ item.display := fun hm => by
    obtain ⟨s, hs, hcs⟩ := Json.mem_strings_of_mem_display verbatim_lt (by decide) item hm
    exact h s hs hcs
  refine (count_replaceScoped_le verbatim_lt (by decide) (notMem_scopeOf h (by decide) n) _).trans ?_
  split
  · exact hshown
  · exact (count_replaceNamed_le hdisplay _).trans hshown

/-! ## The items that are taken -/

private theorem mem_insertBackward {precedes : Json → Json → Bool} {x v : Json} {l : List Json}
    (h : v ∈ insertBackward precedes x l) : v = x ∨ v ∈ l := by
  induction l with
  | nil => simpa [insertBackward] using h
  | cons y l ih =>
    rw [insertBackward] at h
    split at h
    · rcases List.mem_cons.1 h with rfl | h
      · exact Or.inr List.mem_cons_self
      · exact (ih h).imp_right (List.mem_cons_of_mem y)
    · exact List.mem_cons.1 h

theorem mem_of_mem_sortItems {o : Order} {items : List Json} {v : Json} (h : v ∈ sortItems o items) :
    v ∈ items := by
  have key : ∀ (l sorted : List Json),
      v ∈ l.foldl (fun sorted x => insertBackward o.precedes x sorted) sorted → v ∈ sorted ∨ v ∈ l := by
    intro l
    induction l with
    | nil => exact fun _ h => Or.inl h
    | cons x l ih =>
      intro sorted h
      rcases ih _ h with h | h
      · rcases mem_insertBackward h with rfl | h
        · exact Or.inr List.mem_cons_self
        · exact Or.inl h
      · exact Or.inr (List.mem_cons_of_mem x h)
  exact (key items [] (List.mem_reverse.1 h)).resolve_left (by simp)

theorem mem_of_mem_window {e : Element} {items : List Json} {v : Json} (h : v ∈ window e items) :
    v ∈ items := by
  unfold window at h
  simp only at h
  split at h
  · exact List.mem_of_mem_drop (List.mem_of_mem_take h)
  · exact List.mem_of_mem_drop h

end Loop

namespace Site

variable {σ : Type} [Storage σ] {site : Site σ} {frontmatter : Option Fields} {t t' name : Text}

/-- The items of a loop are inside of the data that it names. -/
theorem strings_subset_of_mem_loopItems? {e : Element} {items : List Json} {item : Json}
    (h : site.loopItems? frontmatter e name = .ok (some items)) (hitem : item ∈ items) :
    ∃ v, site.loopData? frontmatter name = .ok (some v) ∧ item.strings ⊆ v.strings := by
  unfold loopItems? at h
  cases hdata : site.loopData? frontmatter name with
  | error err => simp [hdata, bind, Except.bind] at h
  | ok data =>
    simp only [hdata, bind, Except.bind] at h
    split at h
    · next all hall =>
      -- the order and the window only choose among the items
      have hmem : item ∈ all := by
        simp only [pure, Except.pure, Except.ok.injEq, Option.some.injEq] at h
        have hw := Loop.mem_of_mem_window (h ▸ hitem)
        split at hw
        · exact Loop.mem_of_mem_sortItems hw
        · exact hw
      have hsub : item.strings ⊆ (Json.array all).strings := Json.strings_subset_of_mem hmem
      split at hall
      · obtain ⟨v, hv, hnav⟩ := Option.bind_eq_some_iff.1 hall
        exact ⟨v, by rw [hv], List.Subset.trans hsub (Json.strings_subset_of_descend? hnav)⟩
      · exact ⟨.array all, by rw [hall], hsub⟩
    · simp [pure, Except.pure] at h

/-- A round is the body of its loop for one of the items. -/
theorem eq_renderItem_of_mem_rounds? {e : Element} {texts : List Text}
    (h : site.rounds? frontmatter e = .ok (some texts)) (ht : t ∈ texts) :
    ∃ name items item n, site.loopItems? frontmatter e name = .ok (some items) ∧ item ∈ items ∧
      t = Loop.renderItem e.body item n (Loop.aliasOf e name) := by
  unfold rounds? at h
  split at h
  · next body name hbody hname =>
    cases hitems : site.loopItems? frontmatter e name with
    | error err => simp [hitems, bind, Except.bind] at h
    | ok found =>
      cases found with
      | none =>
        simp only [hitems, bind, Except.bind, pure, Except.pure, Except.ok.injEq,
          Option.some.injEq] at h
        simp [← h] at ht
      | some items =>
        simp only [hitems, bind, Except.bind, pure, Except.pure, Except.ok.injEq,
          Option.some.injEq] at h
        rw [← h, List.mem_mapIdx] at ht
        obtain ⟨n, hn, rfl⟩ := ht
        exact ⟨name, items, items[n], n, hitems, List.getElem_mem hn, by
          rw [Element.body, hbody, Option.getD_some]⟩
  · simp [pure, Except.pure] at h

variable (site frontmatter) in
/-- No string in the data of any loop has a `<`. -/
def PlainData : Prop :=
  ∀ name v, site.loopData? frontmatter name = .ok (some v) → ∀ s ∈ v.strings, '<' ∉ s

/-- Over data without a `<` the rounds of the loops in a text have fewer of them than the text. -/
theorem count_lt_of_mem_rounds? (hdata : PlainData site frontmatter) {e : Element} {texts : List Text}
    (he : .element e ∈ pieces Loop.tag t) (hr : site.rounds? frontmatter e = .ok (some texts))
    (ht : t' ∈ texts) : t'.count '<' < t.count '<' := by
  obtain ⟨name, items, item, n, hitems, hitem, rfl⟩ := eq_renderItem_of_mem_rounds? hr ht
  obtain ⟨v, hv, hsub⟩ := strings_subset_of_mem_loopItems? hitems hitem
  calc (Loop.renderItem e.body item n (Loop.aliasOf e name)).count '<'
      ≤ e.body.count '<' :=
        Loop.count_renderItem_le (fun s hs => hdata name v hv s (hsub hs)) _ _ _
    _ < e.text.count '<' := count_body_lt_of_mem_pieces he
    _ ≤ t.count '<' := (infix_of_mem_pieces he).sublist.count_le '<'

/-- Over data without a `<`, a stack for as many open rounds as the text has of them is deep enough. -/
theorem exists_expandLoopsWithin_eq_some_of_plainData (hdata : PlainData site frontmatter) {n : ℕ}
    (h : t.count '<' ≤ n) : ∃ r, site.expandLoopsWithin frontmatter n t = some r := by
  induction n generalizing t with
  | zero =>
    rw [expandLoopsWithin_zero]
    refine exists_inSequence_eq_some fun p hp => ?_
    cases p with
    | text u => exact ⟨_, rfl⟩
    | element e =>
      -- without a `<` there is no element
      have hbody := count_body_lt_of_mem_pieces hp
      have htext := (infix_of_mem_pieces hp).sublist.count_le '<'
      omega
  | succ n ih =>
    rw [expandLoopsWithin_succ]
    refine exists_inSequence_eq_some fun p hp => ?_
    cases p with
    | text u => exact ⟨_, rfl⟩
    | element e =>
      refine exists_expandPiece_eq_some fun texts hr => exists_inSequence_eq_some fun t' ht' => ih ?_
      have hlt := count_lt_of_mem_rounds? hdata hp hr ht'
      omega

end Site

end Pagewright
