import Pagewright.Proofs.Loop.Round
import Pagewright.Proofs.Loop.Termination

/-!
# The meaning of nested loops

Expanding a loop renders a round for each of its items and expands the loops in the round, and so on inwards.
For the text of a template this comes to what the template means (`Template.denote`) as long as the loops of every
round come back in their places (`Template.Clean`), and only then: where the ends of markers are left in a round,
they are in what is put out, and nothing that a template means has them. `Site.expandLoops_write_iff` says both.
A text between two loops that is written like the inside of a marker is enough to go wrong, when a condition
drops a loop in front of it (`Site.expandLoops_markedBody`).
-/

namespace Pagewright

open Loop

namespace Template

/-! ## Clean templates -/

/-- In all rounds that are rendered, no marker of a dropped loop occurs behind its place. -/
def Clean (collections : Collections) (env : Env) : Template → Prop
  | nil => True
  | text _ rest => rest.Clean collections env
  | slot _ _ rest => rest.Clean collections env
  | block condition body rest =>
    (env.holds condition → body.Clean collections env) ∧ rest.Clean collections env
  | loop collection scopeName body rest =>
    (∀ n item, ((collections.get? collection).getD [])[n]? = some item →
      ¬ BodyPart.Collides 0 (body.parts scopeName (scopeOf item n) env) ∧
        body.Clean collections ((scopeName, scopeOf item n) :: env)) ∧
      rest.Clean collections env

/-- No block has a loop in it, at any place. -/
def LoopsOutside : Template → Prop
  | nil => True
  | text _ rest => rest.LoopsOutside
  | slot _ _ rest => rest.LoopsOutside
  | block _ body rest => body.loops = 0 ∧ body.LoopsOutside ∧ rest.LoopsOutside
  | loop _ _ body rest => body.LoopsOutside ∧ rest.LoopsOutside

variable {collections : Collections} {around : List (Text × List Json)} {env : Env} {t : Template}

theorem not_collides_append {ps qs : List BodyPart} {n : Nat} (hp : BodyPart.loops ps = [])
    (hq : ∀ n, ¬ BodyPart.Collides n qs) : ¬ BodyPart.Collides n (ps ++ qs) := by
  induction ps with
  | nil => exact hq n
  | cons p ps ih =>
    cases p with
    | words t => exact ih hp
    | loop kept t => cases hp

/-- What no condition drops does not collide. -/
theorem not_collides_parts (h : t.LoopsOutside) (scopeName : Text) (scope : Fields) (env : Env) (n : Nat) :
    ¬ BodyPart.Collides n (t.parts scopeName scope env) := by
  induction t generalizing n with
  | nil => exact id
  | text t rest ih => exact ih h n
  | slot name field rest ih => exact ih h n
  | block condition body rest _ ihr =>
    obtain ⟨hloops, -, hrest⟩ := h
    have hnone : BodyPart.loops (body.parts scopeName scope env) = [] := by
      rw [← List.length_eq_zero_iff, length_loops_parts, hloops]
    rw [parts]
    refine not_collides_append ?_ (ihr hrest)
    split
    · exact hnone
    · rw [BodyPart.loops_dropped, hnone]
  | loop collection name body rest _ ihr =>
    rw [parts, BodyPart.Collides]
    rintro (⟨hkept, -⟩ | hrest)
    · cases hkept
    · exact ihr h.2 (n + 1) hrest

/-- A template without loops in its blocks is clean, whatever its texts are. -/
theorem clean_of_loopsOutside (h : t.LoopsOutside) (collections : Collections) (env : Env) :
    t.Clean collections env := by
  induction t generalizing env with
  | nil => trivial
  | text t rest ih => exact ih h env
  | slot name field rest ih => exact ih h env
  | block condition body rest ihb ihr => exact ⟨fun _ => ihb h.2.1 env, ihr h.2.2 env⟩
  | loop collection scopeName body rest ihb ihr =>
    refine ⟨fun n item _ => ⟨?_, ihb h.1 _⟩, ihr h.2 env⟩
    exact not_collides_parts h.1 scopeName (scopeOf item n) env 0

/-- What a template means has no ends of markers. -/
theorem null_notMem_denote (h : t.Proper collections around) (hw : env.Within around) :
    '\x00' ∉ t.denote collections env := by
  induction t generalizing around env with
  | nil => simp [denote]
  | text t rest ih =>
    rw [denote, List.mem_append, not_or]
    exact ⟨h.1.2.2, ih h.2 hw⟩
  | slot name field rest ih =>
    rw [denote, List.mem_append, not_or]
    exact ⟨notMem_shows h.1 h.2.1 hw h.2.2.1 (by simp), ih h.2.2.2 hw⟩
  | block condition body rest ihb ihr =>
    rw [denote, List.mem_append, not_or]
    refine ⟨?_, ihr h.2.2 hw⟩
    split
    · exact ihb h.2.1 hw
    · simp
  | loop collection scopeName body rest ihb ihr =>
    obtain ⟨-, -, -, ⟨items, hitems, -, hbody⟩, hrest⟩ := h
    rw [denote, List.mem_append, not_or]
    refine ⟨fun hm => ?_, ihr hrest hw⟩
    obtain ⟨out, hout, hm⟩ := List.mem_flatten.1 hm
    rw [hitems, Option.getD_some, List.mem_mapIdx] at hout
    obtain ⟨n, hn, rfl⟩ := hout
    exact ihb hbody (hw.mono.cons List.mem_cons_self (List.getElem_mem hn) n) hm

end Template

namespace Site

open Template

variable {σ : Type} [Storage σ] {site : Site σ} {frontmatter : Option Fields}
  {around : List (Text × List Json)} {env : Env} {t body : Template} {u r out collection scopeName : Text}
  {items : List Json} {n : ℕ}

/-! ## Expanding texts in parts -/

private theorem map_append_nil (x : Option (Except TemplateError Text)) :
    x.map (Except.map (([] : Text) ++ ·)) = x := by
  cases x with
  | none => rfl
  | some result => cases result <;> rfl

private theorem map_append_append (a b : Text) (x : Option (Except TemplateError Text)) :
    (x.map (Except.map (b ++ ·))).map (Except.map (a ++ ·)) = x.map (Except.map (a ++ b ++ ·)) := by
  cases x with
  | none => rfl
  | some result => cases result <;> simp [Except.map]

/-- A text is expanded piece by piece, where the rounds of its loops are expanded in the given way. -/
private def expandPieces (site : Site σ) (frontmatter : Option Fields)
    (f : Text → Option (Except TemplateError Text)) (t : Text) : Option (Except TemplateError Text) :=
  inSequence (site.expandPiece frontmatter f) (pieces tag t)

private theorem exists_expandPieces (site : Site σ) (frontmatter : Option Fields) (n : ℕ) :
    ∃ f, site.expandLoopsWithin frontmatter n = expandPieces site frontmatter f := by
  cases n with
  | zero => exact ⟨fun _ => none, rfl⟩
  | succ n => exact ⟨site.expandLoopsWithin frontmatter n, rfl⟩

private theorem expandPieces_of_skips (h : Element.Skips tag u) (f : Text → Option (Except TemplateError Text))
    (r : Text) :
    expandPieces site frontmatter f (u ++ r) =
      (expandPieces site frontmatter f r).map (Except.map (u ++ ·)) := by
  obtain ⟨t, ps, hr, hu⟩ := pieces_append_of_skips h r
  have hpiece : ∀ t, site.expandPiece frontmatter f (.text t) = some (.ok t) := fun _ => rfl
  rw [expandPieces, expandPieces, hr, hu, inSequence_cons_of_ok (hpiece _), inSequence_cons_of_ok (hpiece _),
    map_append_append]

/-- A text without tags of loops is put out as it is. -/
theorem expandLoopsWithin_of_skips (h : Element.Skips tag u) (n : ℕ) (r : Text) :
    site.expandLoopsWithin frontmatter n (u ++ r) =
      (site.expandLoopsWithin frontmatter n r).map (Except.map (u ++ ·)) := by
  obtain ⟨f, hf⟩ := exists_expandPieces site frontmatter n
  rw [hf]
  exact expandPieces_of_skips h f r

theorem expandLoopsWithin_nil (n : ℕ) : site.expandLoopsWithin frontmatter n [] = some (.ok []) := by
  obtain ⟨f, hf⟩ := exists_expandPieces site frontmatter n
  rw [hf, expandPieces, pieces_nil]
  rfl

private theorem expandPieces_loop (hc : IsName collection) (ha : IsName scopeName)
    (hb : Element.Balanced tag u) (f : Text → Option (Except TemplateError Text)) (r : Text) :
    expandPieces site frontmatter f (written collection scopeName u ++ r) =
      inSequence (site.expandPiece frontmatter f)
        (.element (writtenElement collection scopeName u) :: pieces tag r) := by
  have hpiece : site.expandPiece frontmatter f (.text []) = some (.ok []) := rfl
  rw [expandPieces, pieces_loop (hc.notMem (by decide)) (ha.notMem (by decide)) hb, inSequence_cons_of_ok hpiece,
    map_append_nil]

/-- A loop is put out as its rounds are, when they succeed. -/
theorem expandLoopsWithin_loop (hc : IsName collection) (ha : IsName scopeName) (hb : Element.Balanced tag u)
    (hdata : site.loopData? frontmatter collection = .ok (some (.array items)))
    (hrounds : inSequence (site.expandLoopsWithin frontmatter n) (roundsOf u items scopeName) = some (.ok out))
    (r : Text) :
    site.expandLoopsWithin frontmatter (n + 1) (written collection scopeName u ++ r) =
      (site.expandLoopsWithin frontmatter (n + 1) r).map (Except.map (out ++ ·)) := by
  have hloop : site.expandPiece frontmatter (site.expandLoopsWithin frontmatter n)
      (.element (writtenElement collection scopeName u)) = some (.ok out) := by
    rw [expandPiece_element (rounds?_writtenElement hdata), hrounds]
  exact (expandPieces_loop hc ha hb _ r).trans (inSequence_cons_of_ok hloop)

private theorem exists_of_expandPieces_loop (hc : IsName collection) (ha : IsName scopeName)
    (hb : Element.Balanced tag u) {f : Text → Option (Except TemplateError Text)}
    (h : expandPieces site frontmatter f (written collection scopeName u ++ r) = some (.ok out)) :
    ∃ a b, site.expandPiece frontmatter f (.element (writtenElement collection scopeName u)) = some (.ok a) ∧
      expandPieces site frontmatter f r = some (.ok b) ∧ out = a ++ b := by
  rw [expandPieces_loop hc ha hb] at h
  rcases inSequence_cons_eq_some h with ⟨err, -, herr⟩ | ⟨a, tail, hloop, htail, hout⟩
  · cases herr
  · cases tail with
    | error err => cases hout
    | ok b => exact ⟨a, b, hloop, htail, Except.ok.inj hout⟩

/-- What is put out for a loop is what is put out for its rounds, and then for what follows. -/
theorem exists_of_expandLoopsWithin_loop (hc : IsName collection) (ha : IsName scopeName)
    (hb : Element.Balanced tag u) (hdata : site.loopData? frontmatter collection = .ok (some (.array items)))
    (h : site.expandLoopsWithin frontmatter (n + 1) (written collection scopeName u ++ r) = some (.ok out)) :
    ∃ a b, inSequence (site.expandLoopsWithin frontmatter n) (roundsOf u items scopeName) = some (.ok a) ∧
      site.expandLoopsWithin frontmatter (n + 1) r = some (.ok b) ∧ out = a ++ b := by
  obtain ⟨a, b, hloop, htail, hout⟩ := exists_of_expandPieces_loop hc ha hb h
  rw [expandPiece_element (rounds?_writtenElement hdata)] at hloop
  exact ⟨a, b, hloop, htail, hout⟩

private theorem exists_of_map_append {x : Option (Except TemplateError Text)}
    (h : x.map (Except.map (u ++ ·)) = some (.ok out)) : ∃ b, x = some (.ok b) ∧ out = u ++ b := by
  obtain ⟨result, rfl, hresult⟩ := Option.map_eq_some_iff.1 h
  cases result with
  | error err => cases hresult
  | ok b => exact ⟨b, rfl, (Except.ok.inj hresult).symm⟩

/-- What follows templates is put out behind them. -/
theorem exists_of_expandLoopsWithin_fill (h : t.Proper site.collections around) (hw : env.Within around)
    (hout : site.expandLoopsWithin frontmatter n (t.fill env ++ r) = some (.ok out)) :
    ∃ a b, site.expandLoopsWithin frontmatter n r = some (.ok b) ∧ out = a ++ b := by
  have hskips : ∀ {u r out : Text}, Element.Skips tag u →
      site.expandLoopsWithin frontmatter n (u ++ r) = some (.ok out) →
      ∃ b, site.expandLoopsWithin frontmatter n r = some (.ok b) ∧ out = u ++ b := by
    intro u r out hu hout
    rw [expandLoopsWithin_of_skips hu] at hout
    exact exists_of_map_append hout
  induction t generalizing around r out with
  | nil => exact ⟨[], out, hout, rfl⟩
  | text t rest ih =>
    rw [fill, List.append_assoc] at hout
    obtain ⟨b, hb, rfl⟩ := hskips (Element.skips_of_notMem h.1.1) hout
    obtain ⟨a, b, hr, rfl⟩ := ih h.2 hw hb
    exact ⟨t ++ a, b, hr, (List.append_assoc _ _ _).symm⟩
  | slot name field rest ih =>
    have hslot := notMem_shows h.1 h.2.1 hw h.2.2.1 (c := '<') (by simp)
    rw [fill, List.append_assoc] at hout
    obtain ⟨b, hb, rfl⟩ := hskips (Element.skips_of_notMem hslot) hout
    obtain ⟨a, b, hr, rfl⟩ := ih h.2.2.2 hw hb
    exact ⟨_ ++ a, b, hr, (List.append_assoc _ _ _).symm⟩
  | block condition body rest ihb ihr =>
    rw [fill] at hout
    simp only [Element.written, List.append_assoc] at hout
    obtain ⟨b₁, h₁, rfl⟩ := hskips (skips_blockOpening h.1) hout
    obtain ⟨a₂, b₂, h₂, rfl⟩ := ihb h.2.1 hw h₁
    obtain ⟨b₃, h₃, rfl⟩ := hskips skips_blockClosing h₂
    obtain ⟨a₄, b₄, h₄, rfl⟩ := ihr h.2.2 hw h₃
    exact ⟨'<' :: blockOpening condition ++ (a₂ ++ ('<' :: blockClosing ++ a₄)), b₄, h₄, by simp⟩
  | loop collection name body rest _ ihr =>
    obtain ⟨hc, hname, -, ⟨items, -, -, hbody⟩, hrest⟩ := h
    obtain ⟨f, hf⟩ := exists_expandPieces site frontmatter n
    rw [fill, List.append_assoc, hf] at hout
    obtain ⟨a, b, -, htail, rfl⟩ := exists_of_expandPieces_loop hc hname (balanced_fill hbody hw.mono) hout
    rw [← hf] at htail
    obtain ⟨a', b', hr, rfl⟩ := ihr hrest hw htail
    exact ⟨a ++ a', b', hr, (List.append_assoc _ _ _).symm⟩

/-- The end of a marker behind texts of templates is put out. -/
theorem null_mem_of_expandLoopsWithin (h : Texts site.collections around env u) (hw : env.Within around)
    (hout : site.expandLoopsWithin frontmatter n (u ++ '\x00' :: r) = some (.ok out)) : '\x00' ∈ out := by
  obtain ⟨ts, rfl, hts⟩ := h
  induction ts generalizing out with
  | nil =>
    have hskips : Element.Skips tag ['\x00'] := Element.skips_of_notMem (by decide)
    have htext : ([] : List Template).flatMap (fill env) ++ '\x00' :: r = ['\x00'] ++ r := rfl
    rw [htext, expandLoopsWithin_of_skips hskips] at hout
    obtain ⟨b, -, rfl⟩ := exists_of_map_append hout
    exact List.mem_append_left _ List.mem_cons_self
  | cons t ts ih =>
    rw [List.flatMap_cons, List.append_assoc] at hout
    obtain ⟨a, b, hb, rfl⟩ := exists_of_expandLoopsWithin_fill (hts t List.mem_cons_self) hw hout
    exact List.mem_append_right _ (ih (fun s hs => hts s (List.mem_cons_of_mem t hs)) hb)

/-! ## Rounds -/

/-- A registered collection is found under its name. -/
theorem loopData?_of_get? (hc : IsName collection) (h : site.collections.get? collection = some items) :
    site.loopData? frontmatter collection = .ok (some (.array items)) := by
  have hnone : Text.after? "frontmatter.".toList collection = none := by
    rw [Text.after?_eq_none_iff]
    intro hpre
    have hpoint : '.' ∈ "frontmatter.".toList := by decide
    exact hc.notMem (by decide) (hpre.subset hpoint)
  unfold loopData?
  rw [hnone, h]
  rfl

/-- A round of a clean template is put out as what the template means, and what follows it behind that. -/
theorem expandLoopsWithin_round (h : t.Proper site.collections around) (hw : env.Within around)
    (hdepth : t.depth ≤ n) (hclean : t.Clean site.collections env) (r : Text) :
    site.expandLoopsWithin frontmatter n (t.rendered env ++ r) =
      (site.expandLoopsWithin frontmatter n r).map (Except.map (t.denote site.collections env ++ ·)) := by
  induction t generalizing around env n r with
  | nil => exact (map_append_nil _).symm
  | text t rest ih =>
    rw [rendered, denote, List.append_assoc, expandLoopsWithin_of_skips (Element.skips_of_notMem h.1.1),
      ih h.2 hw hdepth hclean, map_append_append]
  | slot name field rest ih =>
    have hslot := notMem_shows h.1 h.2.1 hw h.2.2.1 (c := '<') (by simp)
    rw [rendered, denote, List.append_assoc, expandLoopsWithin_of_skips (Element.skips_of_notMem hslot),
      ih h.2.2.2 hw hdepth hclean, map_append_append]
  | block condition body rest ihb ihr =>
    have hbody : body.depth ≤ n := (Nat.le_max_left _ _).trans hdepth
    have hrest : rest.depth ≤ n := (Nat.le_max_right _ _).trans hdepth
    rw [rendered, denote]
    by_cases hholds : env.holds condition
    · rw [if_pos hholds, if_pos hholds, List.append_assoc, ihb h.2.1 hw hbody (hclean.1 hholds),
        ihr h.2.2 hw hrest hclean.2, map_append_append]
    · rw [if_neg hholds, if_neg hholds, List.nil_append, List.nil_append, ihr h.2.2 hw hrest hclean.2]
  | loop collection scopeName body rest ihb ihr =>
    obtain ⟨hc, ha, hnew, ⟨items, hitems, hobjects, hbody⟩, hrest⟩ := h
    have hpos : body.depth + 1 ≤ n := (Nat.le_max_left _ _).trans hdepth
    have hdepthRest : rest.depth ≤ n := (Nat.le_max_right _ _).trans hdepth
    obtain ⟨m, rfl⟩ : ∃ m, n = m + 1 := ⟨n - 1, by omega⟩
    have hrounds : inSequence (site.expandLoopsWithin frontmatter m) (roundsOf (body.fill env) items scopeName) =
        some (.ok (items.mapIdx fun k item =>
          body.denote site.collections ((scopeName, scopeOf item k) :: env)).flatten) := by
      refine inSequence_eq_ok_iff.2 ⟨_, ?_, rfl⟩
      refine List.ext_getElem (by simp [roundsOf]) fun k hkRounds _ => ?_
      have hk : k < items.length := by simpa [roundsOf] using hkRounds
      have hitem : items[k] ∈ items := List.getElem_mem hk
      have hsome : ((site.collections.get? collection).getD [])[k]? = some items[k] := by
        rw [hitems, Option.getD_some, List.getElem?_eq_getElem hk]
      obtain ⟨hcollides, hcleanBody⟩ := hclean.1 k items[k] hsome
      have hround := renderItem_fill (n := k) hbody hw ha hnew (hobjects _ hitem) hcollides
      have hexpand := ihb hbody (hw.mono.cons List.mem_cons_self hitem k) (by omega : body.depth ≤ m) hcleanBody []
      rw [List.append_nil, expandLoopsWithin_nil] at hexpand
      simp only [roundsOf, List.getElem_map, List.getElem_mapIdx, hround, hexpand, Option.map_some, Except.map,
        List.append_nil]
    rw [rendered, denote, hitems, Option.getD_some, List.append_assoc,
      expandLoopsWithin_loop hc ha (balanced_fill hbody hw.mono) (loopData?_of_get? hc hitems) hrounds,
      ihr hrest hw hdepthRest hclean.2, map_append_append]

/-- When a template is not clean, the end of a marker is put out for a round of it. -/
theorem null_mem_of_not_clean (h : t.Proper site.collections around) (hw : env.Within around)
    (hdepth : t.depth ≤ n) (hclean : ¬ t.Clean site.collections env)
    (hout : site.expandLoopsWithin frontmatter n (t.rendered env ++ r) = some (.ok out)) : '\x00' ∈ out := by
  induction t generalizing around env n r out with
  | nil => exact absurd trivial hclean
  | text t rest ih =>
    rw [rendered, List.append_assoc, expandLoopsWithin_of_skips (Element.skips_of_notMem h.1.1)] at hout
    obtain ⟨b, hb, rfl⟩ := exists_of_map_append hout
    exact List.mem_append_right _ (ih h.2 hw hdepth hclean hb)
  | slot name field rest ih =>
    have hslot := notMem_shows h.1 h.2.1 hw h.2.2.1 (c := '<') (by simp)
    rw [rendered, List.append_assoc, expandLoopsWithin_of_skips (Element.skips_of_notMem hslot)] at hout
    obtain ⟨b, hb, rfl⟩ := exists_of_map_append hout
    exact List.mem_append_right _ (ih h.2.2.2 hw hdepth hclean hb)
  | block condition body rest ihb ihr =>
    have hbody : body.depth ≤ n := (Nat.le_max_left _ _).trans hdepth
    have hrest : rest.depth ≤ n := (Nat.le_max_right _ _).trans hdepth
    rw [rendered] at hout
    by_cases hholds : env.holds condition
    · rw [if_pos hholds, List.append_assoc] at hout
      by_cases hb : body.Clean site.collections env
      · -- the body is put out as it should be, so something is wrong behind it
        rw [expandLoopsWithin_round h.2.1 hw hbody hb] at hout
        obtain ⟨b, hb', rfl⟩ := exists_of_map_append hout
        exact List.mem_append_right _ (ihr h.2.2 hw hrest (fun hr => hclean ⟨fun _ => hb, hr⟩) hb')
      · exact ihb h.2.1 hw hbody hb hout
    · rw [if_neg hholds, List.nil_append] at hout
      exact ihr h.2.2 hw hrest (fun hr => hclean ⟨fun hh => absurd hh hholds, hr⟩) hout
  | loop collection scopeName body rest ihb ihr =>
    obtain ⟨hc, ha, hnew, ⟨items, hitems, hobjects, hbody⟩, hrest⟩ := h
    have hpos : body.depth + 1 ≤ n := (Nat.le_max_left _ _).trans hdepth
    have hdepthRest : rest.depth ≤ n := (Nat.le_max_right _ _).trans hdepth
    obtain ⟨m, rfl⟩ : ∃ m, n = m + 1 := ⟨n - 1, by omega⟩
    rw [rendered, List.append_assoc] at hout
    obtain ⟨a, b, hrounds, hb, rfl⟩ := exists_of_expandLoopsWithin_loop hc ha (balanced_fill hbody hw.mono)
      (loopData?_of_get? hc hitems) hout
    by_cases hall : rest.Clean site.collections env
    · refine List.mem_append_left _ ?_
      -- some round is not clean, and what is put out for it is a part of the whole
      rw [Clean, not_and_or, hitems, Option.getD_some] at hclean
      have hloop := hclean.resolve_right (not_not.2 hall)
      push Not at hloop
      obtain ⟨k, item, hitem, hround⟩ := hloop
      obtain ⟨hk, rfl⟩ := List.getElem?_eq_some_iff.1 hitem
      have hmem : items[k] ∈ items := List.getElem_mem hk
      obtain ⟨outs, houts, rfl⟩ := inSequence_eq_ok_iff.1 hrounds
      have hlen : k < outs.length := by
        have := congrArg List.length houts
        simp only [List.length_map, roundsOf, List.length_mapIdx] at this
        omega
      have hexpand : site.expandLoopsWithin frontmatter m (renderItem (body.fill env) items[k] k scopeName) =
          some (.ok outs[k]) := by
        have hget := congrArg (·[k]?) houts
        simpa [roundsOf, List.getElem?_eq_getElem hk, List.getElem?_eq_getElem hlen] using hget
      have hwithin : Env.Within ((scopeName, scopeOf items[k] k) :: env) ((scopeName, items) :: around) :=
        hw.mono.cons List.mem_cons_self hmem k
      refine List.mem_flatten.2 ⟨outs[k], List.getElem_mem hlen, ?_⟩
      by_cases hcollides : BodyPart.Collides 0 (body.parts scopeName (scopeOf items[k] k) env)
      · obtain ⟨s, r', hs, htexts⟩ := renderItem_fill_of_collides hbody hw ha hnew (hobjects _ hmem) hcollides
        rw [hs] at hexpand
        exact null_mem_of_expandLoopsWithin htexts hwithin hexpand
      · rw [renderItem_fill hbody hw ha hnew (hobjects _ hmem) hcollides, ← List.append_nil (body.rendered _)] at hexpand
        exact ihb hbody hwithin (by omega) (hround hcollides) hexpand
    · exact List.mem_append_right _ (ihr hrest hw hdepthRest hall hb)

/-! ## Loops -/

/-- The expansion of a loop is what its template means exactly if the template is clean. -/
theorem expandLoops_write_iff
    (h : (Template.loop collection scopeName body .nil).Proper site.collections [])
    (hdepth : (Template.loop collection scopeName body .nil).depth ≤ site.stack + 1) :
    site.expandLoops frontmatter (Template.loop collection scopeName body .nil).write =
        some (.ok ((Template.loop collection scopeName body .nil).denote site.collections [])) ↔
      (Template.loop collection scopeName body .nil).Clean site.collections [] := by
  have hw : Env.Within [] [] := fun name scope hscope => by cases hscope
  have htext : (Template.loop collection scopeName body .nil).write =
      (Template.loop collection scopeName body .nil).rendered [] ++ [] := by
    simp [Template.write, fill, rendered]
  rw [expandLoops, htext]
  constructor
  · intro hout
    by_contra hclean
    exact null_notMem_denote h hw (null_mem_of_not_clean h hw hdepth hclean hout)
  · intro hclean
    rw [expandLoopsWithin_round h hw hdepth hclean, expandLoopsWithin_nil]
    simp [Except.map]

/-! ### Shelves with books -/

/-- Shelves, and the books that are shown for each of them. -/
def shelfCollections : Collections :=
  [("shelf".toList, [.object [("name".toList, .string "top".toList)], .object [("name".toList, .string "low".toList)]]),
   ("books".toList, [
      .object [("new".toList, .bool true), ("title".toList, .string "Dune".toList)],
      .object [("new".toList, .bool false), ("title".toList, .string "Emma".toList)]])]

/-- A loop over books in a loop over shelves. -/
def shelfBody : Template :=
  .slot "shelf".toList "name".toList <| .text [':'] <|
    .loop "books".toList "book".toList
      (.block "book.new".toList (.slot "book".toList "title".toList .nil) <|
        .text ['@'] <| .slot "shelf".toList "name".toList <| .text [','] .nil)
      (.text [';'] .nil)

/-- A site with shelves and books. -/
def shelfSite : Site MemoryStore where
  store := .empty
  settings := default
  collections := shelfCollections

private def shelves : List Json := (shelfCollections.get? "shelf".toList).getD []

private def books : List Json := (shelfCollections.get? "books".toList).getD []

private theorem plain_shelves : ∀ item ∈ shelves, ∀ n v,
    Fields.lookup? (scopeOf item n) "name".toList = some v → IsPlain v.display := by
  intro item hitem
  rcases List.mem_pair.1 hitem with rfl | rfl <;>
    exact isPlain_display_scopeOf (by decide) fun v hv => by cases hv; decide

private theorem plain_books : ∀ item ∈ books, ∀ n v,
    Fields.lookup? (scopeOf item n) "title".toList = some v → IsPlain v.display := by
  intro item hitem
  rcases List.mem_pair.1 hitem with rfl | rfl <;>
    exact isPlain_display_scopeOf (by decide) fun v hv => by cases hv; decide

private theorem proper_shelfBody :
    (Template.loop "shelf".toList "shelf".toList shelfBody .nil).Proper shelfCollections [] := by
  have hshelf : ∀ items, ("shelf".toList, items) ∈ [("shelf".toList, shelves)] → items = shelves := by
    simp
  have hinner : ∀ items, ("shelf".toList, items) ∈ [("book".toList, books), ("shelf".toList, shelves)] →
      items = shelves := by
    simp
  have hbook : ∀ items, ("book".toList, items) ∈ [("book".toList, books), ("shelf".toList, shelves)] →
      items = books := by
    simp
  refine ⟨by decide, by decide, by simp, ⟨shelves, rfl, by decide, ?_⟩, trivial⟩
  refine ⟨by decide, by decide, fun items hm => hshelf items hm ▸ plain_shelves, by decide, ?_⟩
  refine ⟨by decide, by decide, by decide, ⟨books, rfl, by decide, ?_⟩, by decide, trivial⟩
  refine ⟨by decide, ⟨by decide, by decide, fun items hm => hbook items hm ▸ plain_books, trivial⟩, by decide, ?_⟩
  exact ⟨by decide, by decide, fun items hm => hinner items hm ▸ plain_shelves, by decide, trivial⟩

/-- The inner loop sees the items of both loops, and its conditions are those of its own items. -/
theorem expandLoops_shelves :
    shelfSite.expandLoops none (Template.loop "shelf".toList "shelf".toList shelfBody .nil).write =
      some (.ok "top:Dune@top,@top,;low:Dune@low,@low,;".toList) := by
  have hdenote : (Template.loop "shelf".toList "shelf".toList shelfBody .nil).denote shelfCollections [] =
      "top:Dune@top,@top,;low:Dune@low,@low,;".toList := by decide +kernel
  have houtside : (Template.loop "shelf".toList "shelf".toList shelfBody .nil).LoopsOutside :=
    ⟨⟨⟨rfl, trivial, trivial⟩, trivial⟩, trivial⟩
  rw [← hdenote]
  have hproper : (Template.loop "shelf".toList "shelf".toList shelfBody .nil).Proper shelfSite.collections [] :=
    proper_shelfBody
  exact (expandLoops_write_iff hproper (by decide)).2 (clean_of_loopsOutside houtside _ _)

/-! ### A text like a marker -/

/-- A condition drops a loop, and behind it the text between two loops is the inside of its marker. -/
def markedBody : Template :=
  .block "false".toList (.loop ['c'] ['b'] (.text ['x'] .nil) .nil) <|
    .loop ['c'] ['b'] (.text ['y'] .nil) <| .text "ForEach:0".toList <|
      .loop ['c'] ['b'] (.text ['z'] .nil) .nil

/-- The loop that was dropped is shown, and the ones that were not are not. -/
theorem expandLoops_markedBody :
    let t : Template := .loop ['c'] ['a'] markedBody .nil
    t.Proper [(['c'], [.object []])] [] ∧ t.denote [(['c'], [.object []])] [] = "yForEach:0z".toList ∧
      (collectionSite ['c'] [.object []]).expandLoops none t.write =
        some (.ok "\x00ForEach:1xForEach:2\x00".toList) := by
  intro t
  refine ⟨?_, by decide +kernel, by decide +kernel⟩
  refine ⟨by decide, by decide, by simp, ⟨_, rfl, by decide, ?_⟩, trivial⟩
  refine ⟨by decide, ⟨by decide, by decide, by decide, ⟨_, rfl, by decide, by decide, trivial⟩, trivial⟩, ?_⟩
  refine ⟨by decide, by decide, by decide, ⟨_, rfl, by decide, by decide, trivial⟩, by decide, ?_⟩
  exact ⟨by decide, by decide, by decide, ⟨_, rfl, by decide, by decide, trivial⟩, trivial⟩

end Site

end Pagewright
