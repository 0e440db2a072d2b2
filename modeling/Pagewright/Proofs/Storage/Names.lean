import Pagewright.Proofs.Storage.Place

/-!
# Paths that are made of names

A path is ordinary when all of its components are names (`Path.Ordinary`). Such a path is told by its names
(`Path.names`), up to doubled separators, single dots and what stands behind the last name. Two things live here:

* the names of a path (`Path.Ordinary.names_eq_filter`), and when the last of them ends it (`Path.EndsInName`);
* the components of paths that are made of others: of the directory above (`Path.components_of_parent?`), of a path
  that is joined to a directory (`Path.Ordinary.join`), and of what is left behind one
  (`Path.Ordinary.components_relativeTo?`).
-/

namespace Pagewright

namespace Path

variable {p q base : Path} {s t name : Text} {l m : List Text}

/-! ## Names -/

def Component.isName : Component → Bool
  | .name _ => true
  | _ => false

/-- A path of names only, with at least one. -/
def Ordinary (p : Path) : Prop := p.components ≠ [] ∧ ∀ c ∈ p.components, c.isName

instance (p : Path) : Decidable p.Ordinary := inferInstanceAs (Decidable (_ ∧ _))

/-- The names in a path. -/
def names (p : Path) : List Text := p.components.map Component.text

/-- A segment that is a name. -/
structure IsName (s : Text) : Prop where
  counts : isFiller s = false
  ne_parent : s ≠ ['.', '.']
  slash_notMem : '/' ∉ s

/-- Does the path end with its last name? A slash or a dot behind the name asks for a directory. -/
def EndsInName (p : Path) : Prop := ∀ s ∈ (Text.split '/' p.text).getLast?, isFiller s = false

instance (p : Path) : Decidable p.EndsInName := inferInstanceAs (Decidable (∀ s ∈ _, _))

theorem endsInName_iff {front : List Text} (h : Text.split '/' p.text = front ++ [s]) :
    p.EndsInName ↔ isFiller s = false := by
  unfold EndsInName
  rw [h, List.getLast?_concat]
  simp

theorem EndsInName.ne_nil (h : p.EndsInName) : p.text ≠ [] := by
  intro hnil
  unfold EndsInName at h
  rw [hnil] at h
  cases h [] rfl

theorem map_text_componentsOf (l : List Text) : (componentsOf l).map Component.text = l.filter (!isFiller ·) := by
  have hall : ∀ s ∈ l.filter (!isFiller ·), (ofSegment s).text = s := by
    intro s _
    unfold ofSegment
    split
    · next hs => exact hs.symm
    · rfl
  rw [componentsOf, List.map_map]
  exact (List.map_congr_left hall).trans (List.map_id' _)

theorem componentsOf_of_isName (h : ∀ s ∈ l, IsName s) : componentsOf l = l.map .name := by
  induction l with
  | nil => rfl
  | cons s l ih =>
    obtain ⟨hs, hl⟩ := List.forall_mem_cons.1 h
    have hname : ofSegment s = .name s := if_neg hs.ne_parent
    rw [componentsOf_cons hs.counts, hname, ih hl, List.map_cons]

namespace Ordinary

theorem components_eq (h : p.Ordinary) : p.components = p.names.map .name := by
  have hall : ∀ c ∈ p.components, Component.name c.text = c := by
    intro c hc
    cases c with
    | name t => rfl
    | root | current | parent => cases h.2 _ hc
  rw [names, List.map_map]
  exact ((List.map_congr_left hall).trans (List.map_id' _)).symm

theorem names_ne_nil (h : p.Ordinary) : p.names ≠ [] := by
  intro hnil
  exact h.1 (List.map_eq_nil_iff.1 hnil)

theorem isPlain (h : p.Ordinary) : IsPlain p.text := by
  obtain ⟨t⟩ := p
  obtain ⟨hne, hnames⟩ := h
  rcases text_cases t with ⟨r, rfl⟩ | rfl | ⟨r, rfl⟩ | hplain
  · cases hnames .root (by rw [components_absolute]; exact List.mem_cons_self)
  · cases hnames .current (by rw [components_dot]; exact List.mem_cons_self)
  · cases hnames .current (by rw [components_below]; exact List.mem_cons_self)
  · exact hplain

theorem ne_nil (h : p.Ordinary) : p.text ≠ [] := by
  obtain ⟨t⟩ := p
  rintro rfl
  exact h.1 rfl

theorem isAbsolute_eq (h : p.Ordinary) : p.isAbsolute = false := decide_eq_false h.isPlain.head

theorem components_eq_split (h : p.Ordinary) : p.components = componentsOf (Text.split '/' p.text) :=
  components_of_isPlain h.isPlain

/-- The segments that count are the names. -/
theorem names_eq_filter (h : p.Ordinary) : p.names = (Text.split '/' p.text).filter (!isFiller ·) := by
  rw [names, h.components_eq_split, map_text_componentsOf]

theorem isName_of_mem_split (h : p.Ordinary) (hs : s ∈ Text.split '/' p.text) (hfiller : isFiller s = false) :
    IsName s := by
  refine ⟨hfiller, ?_, Text.notMem_of_mem_split hs⟩
  rintro rfl
  have hmem : Component.parent ∈ p.components := by
    rw [h.components_eq_split]
    exact List.mem_map.2 ⟨_, List.mem_filter.2 ⟨hs, by rw [hfiller]; rfl⟩, rfl⟩
  cases h.2 _ hmem

theorem isName (h : p.Ordinary) (hs : s ∈ p.names) : IsName s := by
  rw [h.names_eq_filter, List.mem_filter] at hs
  exact h.isName_of_mem_split hs.1 (by simpa using hs.2)

theorem same_iff (hp : p.Ordinary) (hq : q.Ordinary) : p.same q ↔ p.names = q.names := by
  rw [same, decide_eq_true_iff]
  constructor
  · exact fun h => congrArg (List.map Component.text) h
  · intro h
    rw [hp.components_eq, hq.components_eq, h]

theorem isPrefixOf_iff (hp : p.Ordinary) (hq : q.Ordinary) : p.isPrefixOf q ↔ p.names <+: q.names := by
  have hinj : Function.Injective Component.name := fun _ _ h => Component.name.inj h
  rw [isPrefixOf, List.isPrefixOf_iff_prefix, hp.components_eq, hq.components_eq]
  constructor
  · rintro ⟨r, hr⟩
    obtain ⟨u, v, huv, hu, -⟩ := List.append_eq_map_iff.1 hr
    rw [huv, List.map_injective_iff.2 hinj hu]
    exact List.prefix_append _ v
  · exact fun h => h.map _

end Ordinary

/-! ## Fillers -/

theorem componentsOf_dropWhile (l : List Text) : componentsOf (l.dropWhile isFiller) = componentsOf l := by
  induction l with
  | nil => rfl
  | cons s l ih =>
    cases hs : isFiller s with
    | true => rw [List.dropWhile_cons_of_pos hs, ih, componentsOf_cons_of_isFiller hs]
    | false => rw [List.dropWhile_cons_of_neg (by simp [hs])]

/-- Only fillers are dropped off the end of a list of segments. -/
theorem eq_dropFillerAtEnd_append (l : List Text) :
    ∃ fillers, (∀ s ∈ fillers, isFiller s) ∧ l = dropFillerAtEnd l ++ fillers := by
  refine ⟨(l.reverse.takeWhile isFiller).reverse, fun s hs => ?_, ?_⟩
  · exact List.mem_takeWhile_imp (List.mem_reverse.1 hs)
  · rw [dropFillerAtEnd, ← List.reverse_append, List.takeWhile_append_dropWhile, List.reverse_reverse]

/-- What is left ends with a segment that counts. -/
theorem isFiller_of_mem_getLast?_dropFillerAtEnd (hs : s ∈ (dropFillerAtEnd l).getLast?) : isFiller s = false := by
  rw [dropFillerAtEnd, List.getLast?_reverse] at hs
  exact Text.of_mem_head?_dropWhile hs

theorem componentsOf_of_isFiller (h : ∀ s ∈ l, isFiller s) : componentsOf l = [] := by
  rw [componentsOf, List.filter_eq_nil_iff.2 fun s hs => by simp [h s hs], List.map_nil]

theorem componentsOf_dropFillerAtEnd (l : List Text) : componentsOf (dropFillerAtEnd l) = componentsOf l := by
  obtain ⟨fillers, hall, heq⟩ := eq_dropFillerAtEnd_append l
  conv => rhs; rw [heq, componentsOf_append, componentsOf_of_isFiller hall, List.append_nil]

/-! ## Segments -/

/-- A text whose first segment counts begins with neither a separator nor a single dot. -/
theorem isPlain_of_head_split (h : ∀ s ∈ (Text.split '/' t).head?, isFiller s = false) : IsPlain t := by
  refine ⟨fun hhead => ?_, ?_, ?_⟩
  · obtain ⟨r, rfl⟩ := List.head?_eq_some_iff.1 hhead
    exact absurd (h [] rfl) (by decide)
  · rintro rfl
    exact absurd (h ['.'] rfl) (by decide)
  · rintro r rfl
    exact absurd (h ['.'] rfl) (by decide)

theorem head_split_of_isPlain (h : IsPlain t) (hne : t ≠ []) :
    ∀ s ∈ (Text.split '/' t).head?, isFiller s = false := by
  obtain ⟨ps, hps⟩ := Text.split_eq_cons '/' t
  obtain ⟨c, t, rfl⟩ := List.exists_cons_of_ne_nil hne
  have hc : c ≠ '/' := fun hc => h.head (by rw [hc]; rfl)
  intro s hs
  rw [hps, List.head?_cons, Option.mem_def, Option.some.injEq, List.takeWhile_cons_of_pos (by simpa using hc)] at hs
  subst hs
  rw [isFiller, Bool.or_eq_false_iff, decide_eq_false_iff_not, decide_eq_false_iff_not]
  refine ⟨List.cons_ne_nil c _, fun heq => ?_⟩
  obtain ⟨rfl, hnil⟩ := List.cons.inj heq
  -- the single dot is followed by a separator or by nothing
  cases t with
  | nil => exact h.ne_dot rfl
  | cons d t =>
    by_cases hd : d = '/'
    · exact h.not_below t (by rw [hd])
    · rw [List.takeWhile_cons_of_pos (by simpa using hd)] at hnil
      cases hnil

/-- The components of a path that is written from segments, when the first one counts. -/
theorem components_join_segments (hslash : ∀ s ∈ l, '/' ∉ s) (hhead : ∀ s ∈ l.head?, isFiller s = false) :
    (Path.mk (Text.join ['/'] l)).components = componentsOf l := by
  by_cases hl : l = []
  · subst hl
    rfl
  · have hsplit := Text.split_join hl hslash
    have hplain : IsPlain (Text.join ['/'] l) := isPlain_of_head_split (by rwa [hsplit])
    rw [components_of_isPlain hplain, hsplit]

theorem segments_of_isPlain (h : IsPlain t) : (Path.mk t).segments = (none, Text.split '/' t) := by
  unfold segments
  split
  · next r heq => exact absurd (by rw [show t = '/' :: r from heq]; rfl) h.head
  · next heq => exact absurd heq h.ne_dot
  · next r heq => exact absurd heq (h.not_below r)
  · rfl

theorem Ordinary.segments_eq (h : p.Ordinary) : p.segments = (none, Text.split '/' p.text) :=
  segments_of_isPlain h.isPlain

theorem segments_fst_cases (p : Path) :
    p.segments.1 = none ∨ p.segments.1 = some .root ∨ p.segments.1 = some .current := by
  unfold segments
  split <;> simp

/-! ## Paths that are made of others -/

theorem componentsOf_split_join (h : ∀ s ∈ l, '/' ∉ s) :
    componentsOf (Text.split '/' (Text.join ['/'] l)) = componentsOf l := by
  by_cases hl : l = []
  · rw [hl]
    rfl
  · rw [Text.split_join hl h]

/-- A path ends with its last name if its text ends with segments the last of which counts. -/
theorem endsInName_of_split (h : Text.split '/' p.text = m ++ l) (hne : l ≠ [])
    (hlast : ∀ s ∈ l.getLast?, isFiller s = false) : p.EndsInName := by
  unfold EndsInName
  rwa [h, List.getLast?_append_of_ne_nil m hne]

/-- Segments that are written behind a separator. -/
theorem absolute_join (hslash : ∀ s ∈ l, '/' ∉ s) (hlast : ∀ s ∈ l.getLast?, isFiller s = false) :
    (Path.mk ('/' :: Text.join ['/'] l)).components = .root :: componentsOf l ∧
      (l ≠ [] → (Path.mk ('/' :: Text.join ['/'] l)).EndsInName) := by
  refine ⟨?_, fun hne => ?_⟩
  · rw [components_absolute, componentsOf_split_join hslash]
  · have hsplit : Text.split '/' ('/' :: Text.join ['/'] l) = [[]] ++ l := by
      rw [Text.split, if_pos rfl, Text.split_join hne hslash]
      rfl
    exact endsInName_of_split hsplit hne hlast

/-- Segments that are written behind a dot and a separator. -/
theorem below_join (hslash : ∀ s ∈ l, '/' ∉ s) (hlast : ∀ s ∈ l.getLast?, isFiller s = false) :
    (Path.mk ('.' :: '/' :: Text.join ['/'] l)).components = .current :: componentsOf l ∧
      (l ≠ [] → (Path.mk ('.' :: '/' :: Text.join ['/'] l)).EndsInName) := by
  refine ⟨?_, fun hne => ?_⟩
  · rw [components_below, componentsOf_split_join hslash]
  · have hsplit : Text.split '/' ('.' :: '/' :: Text.join ['/'] l) = [['.']] ++ l := by
      have hdot : Text.split '/' ('.' :: '/' :: Text.join ['/'] l) =
          ['.'] :: Text.split '/' (Text.join ['/'] l) := rfl
      rw [hdot, Text.split_join hne hslash]
      rfl
    exact endsInName_of_split hsplit hne hlast

/-- The first of the segments of a text that begins with neither a separator nor a single dot, if some of them are
left with the last one counting, counts as well. -/
theorem head_of_prefix_split (hplain : IsPlain t) (h : l <+: Text.split '/' t)
    (hlast : ∀ s ∈ l.getLast?, isFiller s = false) : ∀ s ∈ l.head?, isFiller s = false := by
  intro u hu
  obtain ⟨l, rfl⟩ := List.head?_eq_some_iff.1 hu
  have hne : t ≠ [] := by
    rintro rfl
    -- the only segment is empty
    obtain ⟨rfl, hnil⟩ := List.cons_prefix_cons.1 (show u :: l <+: [[]] from h)
    obtain rfl := List.prefix_nil.1 hnil
    cases hlast [] rfl
  obtain ⟨r, hr⟩ := h
  exact head_split_of_isPlain hplain hne u (by rw [← hr]; rfl)

/-- What is left of a path when segments are taken off its end, with the fillers in front of them: it has the
components of the segments that are left, and ends with the last one. -/
theorem ofSegments_of_prefix (h : l <+: p.segments.2) (hlast : ∀ s ∈ l.getLast?, isFiller s = false) :
    (ofSegments p.segments.1 l).components = p.segments.1.toList ++ componentsOf l ∧
      (l ≠ [] → (ofSegments p.segments.1 l).EndsInName) := by
  have hslash : ∀ s ∈ l, '/' ∉ s := fun s hs => notMem_of_mem_segments (h.subset hs)
  obtain ⟨t⟩ := p
  rcases text_cases t with ⟨r, rfl⟩ | rfl | ⟨r, rfl⟩ | hplain
  · exact absolute_join hslash hlast
  · obtain rfl := List.prefix_nil.1 h
    exact ⟨rfl, fun hne => absurd rfl hne⟩
  · cases l with
    | nil => exact ⟨rfl, fun hne => absurd rfl hne⟩
    | cons u l =>
      -- what comes first is empty, and so it is not the last one
      obtain ⟨rfl, -⟩ := List.cons_prefix_cons.1 (show u :: l <+: [] :: Text.split '/' r from h)
      have hne : l ≠ [] := by
        rintro rfl
        cases hlast [] rfl
      have hlast' : ∀ s ∈ l.getLast?, isFiller s = false := by
        rwa [← List.singleton_append, List.getLast?_append_of_ne_nil _ hne] at hlast
      obtain ⟨hcomponents, hends⟩ := below_join (List.forall_mem_cons.1 hslash).2 hlast'
      have htext : ofSegments (Path.mk ('.' :: '/' :: r)).segments.1 ([] :: l) =
          ⟨'.' :: '/' :: Text.join ['/'] l⟩ := by
        show Path.mk (['.'] ++ Text.join ['/'] ([] :: l)) = _
        rw [Text.join_cons hne]
        rfl
      rw [htext, hcomponents, componentsOf_cons_of_isFiller rfl]
      exact ⟨rfl, fun _ => hends hne⟩
  · have hsegments : (Path.mk t).segments = (none, Text.split '/' t) := segments_of_isPlain hplain
    rw [hsegments] at h ⊢
    have hhead := head_of_prefix_split hplain h hlast
    exact ⟨components_join_segments hslash hhead,
      fun hne => endsInName_of_split (m := []) (Text.split_join hne hslash) hne hlast⟩

/-- The directory above a path has the components in front of the last one, and ends with the last of them if that is
a name. -/
theorem components_of_parent? (h : p.parent? = some q) :
    q.components = p.components.dropLast ∧ ∀ t, q.components.getLast? = some (.name t) → q.EndsInName := by
  have hcomponents : p.components = p.segments.1.toList ++ componentsOf p.segments.2 := rfl
  obtain ⟨fillers, hfillers, heq⟩ := eq_dropFillerAtEnd_append p.segments.2
  unfold parent? at h
  split at h
  · next _ _ x before hbefore =>
    obtain rfl := Option.some.inj h
    have hdrop : dropFillerAtEnd p.segments.2 = before.reverse ++ [x] := by
      rw [← List.reverse_reverse (dropFillerAtEnd p.segments.2), hbefore, List.reverse_cons]
    have hx : isFiller x = false := by
      refine isFiller_of_mem_getLast?_dropFillerAtEnd (l := p.segments.2) ?_
      rw [hdrop, List.getLast?_concat]
      rfl
    obtain ⟨fillers', -, heq'⟩ := eq_dropFillerAtEnd_append before.reverse
    have hinitial : dropFillerAtEnd before.reverse <+: p.segments.2 := by
      rw [heq, hdrop]
      conv => rhs; rw [heq', List.append_assoc, List.append_assoc]
      exact List.prefix_append _ _
    obtain ⟨hparent, hends⟩ := ofSegments_of_prefix hinitial fun _ => isFiller_of_mem_getLast?_dropFillerAtEnd
    rw [componentsOf_dropFillerAtEnd] at hparent
    refine ⟨?_, fun t ht => hends fun hnil => ?_⟩
    · have hsingle : componentsOf [x] = [ofSegment x] := componentsOf_cons hx []
      rw [hparent, hcomponents, heq, componentsOf_append, componentsOf_of_isFiller hfillers, List.append_nil, hdrop,
        componentsOf_append, hsingle, ← List.append_assoc, List.dropLast_concat]
    · rw [hparent, ← componentsOf_dropFillerAtEnd, hnil] at ht
      rcases segments_fst_cases p with hstart | hstart | hstart <;> rw [hstart] at ht <;> cases ht
  · next hnil hstart =>
    obtain rfl := Option.some.inj h
    rw [List.reverse_eq_nil_iff] at hnil
    refine ⟨?_, fun t ht => by cases ht⟩
    rw [hcomponents, hstart, ← componentsOf_dropFillerAtEnd, hnil]
    rfl
  · cases h

/-- There is a directory above every path but those without components and the root. -/
theorem parent?_isSome_iff : p.parent?.isSome ↔ ∃ c ∈ p.components.getLast?, c ≠ .root := by
  have hcomponents : p.components = p.segments.1.toList ++ componentsOf (dropFillerAtEnd p.segments.2) := by
    rw [componentsOf_dropFillerAtEnd]
    rfl
  unfold parent?
  split
  · next _ _ x before hbefore =>
    have hdrop : dropFillerAtEnd p.segments.2 = before.reverse ++ [x] := by
      rw [← List.reverse_reverse (dropFillerAtEnd p.segments.2), hbefore, List.reverse_cons]
    have hx : isFiller x = false := by
      refine isFiller_of_mem_getLast?_dropFillerAtEnd (l := p.segments.2) ?_
      rw [hdrop, List.getLast?_concat]
      rfl
    have hsingle : componentsOf [x] = [ofSegment x] := componentsOf_cons hx []
    refine iff_of_true rfl ⟨ofSegment x, ?_, ?_⟩
    · rw [hcomponents, hdrop, componentsOf_append, hsingle, ← List.append_assoc, List.getLast?_concat]
      rfl
    · unfold ofSegment
      split <;> exact nofun
  · next hnil hstart =>
    rw [List.reverse_eq_nil_iff] at hnil
    rw [hcomponents, hstart, hnil]
    exact iff_of_true rfl ⟨.current, rfl, nofun⟩
  · next hnil hstart =>
    rw [List.reverse_eq_nil_iff] at hnil
    rw [hcomponents, hnil]
    refine iff_of_false nofun ?_
    rintro ⟨c, hc, hroot⟩
    rcases segments_fst_cases p with hfirst | hfirst | hfirst
    · rw [hfirst] at hc
      cases hc
    · rw [hfirst] at hc
      exact hroot (Option.some.inj hc).symm
    · exact hstart hfirst

theorem exists_parent? (h : p.components.getLast? = some (.name name)) : ∃ q, p.parent? = some q :=
  Option.isSome_iff_exists.1 (parent?_isSome_iff.2 ⟨.name name, h, nofun⟩)

/-- An ordinary path that is joined to another one has its components behind those of the other one, and ends as it
does. -/
theorem Ordinary.join (hp : p.Ordinary) (hbase : base.text ≠ []) :
    (base.join p).components = base.components ++ p.components ∧ ((base.join p).EndsInName ↔ p.EndsInName) := by
  obtain ⟨u⟩ := base
  have hends : ∀ v : Text, (Path.mk (v ++ '/' :: p.text)).EndsInName ↔ p.EndsInName := by
    intro v
    obtain ⟨ps, hps⟩ := Text.split_eq_cons '/' p.text
    unfold EndsInName
    rw [Text.split_append_sep, List.getLast?_append_of_ne_nil _ (by rw [hps]; simp)]
  rw [join, hp.isAbsolute_eq, if_neg (by decide)]
  split
  · next hend =>
    rw [Bool.or_eq_true, List.isEmpty_iff, decide_eq_true_eq, or_iff_right hbase] at hend
    obtain ⟨v, rfl⟩ := List.getLast?_eq_some_iff.1 hend
    have htext : v ++ ['/'] ++ p.text = v ++ '/' :: p.text := by simp
    rw [htext]
    refine ⟨?_, hends v⟩
    by_cases hv : v = []
    · subst hv
      rw [hp.components_eq_split]
      rfl
    · rw [components_append_singleton hv, components_append_separator hv, hp.components_eq_split]
  · refine ⟨?_, hends u⟩
    rw [components_append_separator hbase, hp.components_eq_split]

theorem IsName.ordinary (h : IsName name) : (Path.mk name).Ordinary ∧ (Path.mk name).components = [.name name] := by
  have hsplit : Text.split '/' name = [name] := Text.split_of_notMem h.slash_notMem
  have hplain : IsPlain name := isPlain_of_head_split (by rw [hsplit]; simpa using h.counts)
  have hcomponents : (Path.mk name).components = [.name name] := by
    rw [components_of_isPlain hplain, hsplit]
    exact componentsOf_of_isName (by simpa using h)
  refine ⟨⟨by simp [hcomponents], fun c hc => ?_⟩, hcomponents⟩
  rw [hcomponents] at hc
  rw [List.mem_singleton.1 hc]
  rfl

/-- There is a path for any names, which ends with the last of them. -/
theorem exists_ordinary (hne : l ≠ []) (h : ∀ s ∈ l, IsName s) :
    ∃ p : Path, p.Ordinary ∧ p.names = l ∧ p.EndsInName := by
  have hslash : ∀ s ∈ l, '/' ∉ s := fun s hs => (h s hs).slash_notMem
  have hhead : ∀ s ∈ l.head?, isFiller s = false := fun s hs => (h s (List.mem_of_mem_head? hs)).counts
  have hcomponents : (Path.mk (Text.join ['/'] l)).components = l.map .name := by
    rw [components_join_segments hslash hhead, componentsOf_of_isName h]
  refine ⟨⟨Text.join ['/'] l⟩, ⟨by simpa [hcomponents] using hne, fun c hc => ?_⟩, ?_, fun s hs => ?_⟩
  · rw [hcomponents] at hc
    obtain ⟨s, -, rfl⟩ := List.mem_map.1 hc
    rfl
  · rw [names, hcomponents, List.map_map]
    exact List.map_id' _
  · rw [Text.split_join hne hslash] at hs
    exact (h s (List.mem_of_mem_getLast? hs)).counts

/-- What is joined to a path comes behind it. -/
theorem Ordinary.components_join (h : p.Ordinary) (base : Path) :
    (base.join p).components = base.components ++ p.components := by
  by_cases hbase : base.text = []
  · have hjoin : base.join p = p := by
      rw [Path.join, if_neg (by simp [h.isAbsolute_eq]), if_pos (by simp [hbase]), hbase]
      rfl
    have hnil : base.components = [] := by
      obtain ⟨t⟩ := base
      subst hbase
      rfl
    rw [hjoin, hnil, List.nil_append]
  · exact (h.join hbase).1

theorem IsName.components_joinText (h : IsName name) (base : Path) :
    (base.joinText name).components = base.components ++ [.name name] := by
  obtain ⟨hordinary, hcomponents⟩ := h.ordinary
  rw [joinText, hordinary.components_join, hcomponents]

theorem Ordinary.joinText (h : base.Ordinary) (hname : IsName name) :
    (base.joinText name).Ordinary ∧ (base.joinText name).names = base.names ++ [name] := by
  have hcomponents := hname.components_joinText base
  refine ⟨⟨by simp [hcomponents], fun c hc => ?_⟩, ?_⟩
  · rw [hcomponents] at hc
    rcases List.mem_append.1 hc with hc | hc
    · exact h.2 c hc
    · rw [List.mem_singleton.1 hc]
      rfl
  · rw [names, hcomponents, List.map_append]
    rfl

theorem Ordinary.foldl_joinText (h : base.Ordinary) {rest : List Text} (hrest : ∀ s ∈ rest, IsName s) :
    (rest.foldl Path.joinText base).Ordinary ∧ (rest.foldl Path.joinText base).names = base.names ++ rest := by
  induction rest generalizing base with
  | nil => exact ⟨h, (List.append_nil _).symm⟩
  | cons s rest ih =>
    obtain ⟨hs, hrest⟩ := List.forall_mem_cons.1 hrest
    obtain ⟨hordinary, hnames⟩ := h.joinText hs
    obtain ⟨hwhole, hwholeNames⟩ := ih hordinary hrest
    refine ⟨hwhole, hwholeNames.trans ?_⟩
    rw [hnames, List.append_assoc]
    rfl

theorem componentsOf_dropSegments (n : ℕ) (l : List Text) :
    componentsOf (dropSegments n l) = (componentsOf l).drop n := by
  induction n generalizing l with
  | zero => exact componentsOf_dropWhile l
  | succ n ih =>
    rw [dropSegments, ih, ← componentsOf_dropWhile l]
    cases hdrop : l.dropWhile isFiller with
    | nil => exact List.drop_nil.trans List.drop_nil.symm
    | cons s r =>
      have hs : isFiller s = false := by
        have hhead := List.head_dropWhile_not isFiller (l := l) (by simp [hdrop])
        simpa [hdrop] using hhead
      rw [componentsOf_cons hs, List.drop_succ_cons]
      rfl

/-- What is left behind a directory has the names that come behind those of the directory. -/
theorem Ordinary.components_relativeTo? (hp : p.Ordinary) (hbase : base.Ordinary) (h : base.isPrefixOf p) :
    (p.relativeTo? base).map Path.components = some (p.components.drop base.components.length) := by
  obtain ⟨l, hl, hdrop⟩ := dropSegments_eq base.components.length (Text.split '/' p.text)
  have hpos : base.components.length ≠ 0 := by simpa using hbase.1
  have hrelative : p.relativeTo? base =
      some (ofSegments none (dropFillerAtEnd (dropSegments base.components.length (Text.split '/' p.text)))) := by
    rw [relativeTo?, if_pos h, hp.segments_eq]
    split
    · next hlength _ => exact absurd hlength hpos
    · next heq _ =>
      obtain ⟨rfl, rfl⟩ := Prod.mk.inj heq
      rfl
  obtain ⟨fillers, -, hfillers⟩ :=
    eq_dropFillerAtEnd_append (dropSegments base.components.length (Text.split '/' p.text))
  rw [hrelative, Option.map_some, hp.components_eq_split, ← componentsOf_dropSegments, ← componentsOf_dropFillerAtEnd]
  refine congrArg some (components_join_segments (fun s hs => ?_) fun s hs => ?_)
  · refine Text.notMem_of_mem_split (t := p.text) (hl ((List.dropWhile_suffix isFiller).subset ?_))
    rw [← hdrop, hfillers]
    exact List.mem_append_left _ hs
  · obtain ⟨r, hr⟩ := List.head?_eq_some_iff.1 hs
    rw [hr, hdrop] at hfillers
    have hhead := List.head_dropWhile_not isFiller (l := l) (by rw [hfillers]; simp)
    simpa [hfillers] using hhead

end Path

end Pagewright
