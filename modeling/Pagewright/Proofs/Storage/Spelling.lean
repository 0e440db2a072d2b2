import Pagewright.Proofs.Storage.Names

/-!
# Paths that are spelled from names

A storage on a disk lists files by paths that have the names with one separator between two of them
(`Path.ofNames`). Functions on the text of a path are functions on the names here: a path is put below another one
(`join_ofNames`), taken off its start (`relativeTo_ofNames`), loses its last name (`parent?_ofNames`), and gets another
extension (`withExtension_ofNames`), unless the stem of its file is a single dot (`withExtension_ofNames_dot`).
-/

namespace Pagewright

namespace Path

variable {s stem extension : Text} {l m front : List Text} {p : Path}

/-! ## Names and their spelling -/

/-- The path with one separator between two names. -/
def ofNames (l : List Text) : Path := ⟨Text.join ['/'] l⟩

theorem split_ofNames (hne : l ≠ []) (h : ∀ s ∈ l, IsName s) : Text.split '/' (ofNames l).text = l :=
  Text.split_join hne fun s hs => (h s hs).slash_notMem

theorem isPlain_ofNames (hne : l ≠ []) (h : ∀ s ∈ l, IsName s) : IsPlain (ofNames l).text := by
  refine isPlain_of_head_split fun s hs => (h s ?_).counts
  rw [split_ofNames hne h] at hs
  exact List.mem_of_mem_head? hs

theorem segments_ofNames (hne : l ≠ []) (h : ∀ s ∈ l, IsName s) : (ofNames l).segments = (none, l) := by
  have hsegments : (ofNames l).segments = (none, Text.split '/' (ofNames l).text) :=
    segments_of_isPlain (isPlain_ofNames hne h)
  rw [hsegments, split_ofNames hne h]

theorem components_ofNames (h : ∀ s ∈ l, IsName s) : (ofNames l).components = l.map .name := by
  have hhead : ∀ s ∈ l.head?, isFiller s = false := fun s hs => (h s (List.mem_of_mem_head? hs)).counts
  rw [ofNames, components_join_segments (fun s hs => (h s hs).slash_notMem) hhead, componentsOf_of_isName h]

theorem ordinary_ofNames (hne : l ≠ []) (h : ∀ s ∈ l, IsName s) : (ofNames l).Ordinary := by
  unfold Ordinary
  rw [components_ofNames h]
  exact ⟨by simpa using hne, by simp [Component.isName]⟩

theorem names_ofNames (h : ∀ s ∈ l, IsName s) : (ofNames l).names = l := by
  rw [names, components_ofNames h, List.map_map]
  exact List.map_id' l

theorem same_ofNames_iff (hl : ∀ s ∈ l, IsName s) (hm : ∀ s ∈ m, IsName s) :
    (ofNames l).same (ofNames m) ↔ l = m := by
  have hinj : Function.Injective Component.name := fun _ _ h => Component.name.inj h
  rw [same, decide_eq_true_iff, components_ofNames hl, components_ofNames hm]
  exact (List.map_injective_iff.2 hinj).eq_iff

theorem fileName?_ofNames (h : ∀ u ∈ front ++ [s], IsName u) : (ofNames (front ++ [s])).fileName? = some s := by
  rw [fileName?, components_ofNames h, List.map_append, List.map_singleton, List.getLast?_concat]

/-! ## Below another path -/

theorem IsName.endsInName (h : IsName s) : (Path.mk s).EndsInName := by
  have hsplit : Text.split '/' s = [] ++ [s] := Text.split_of_notMem h.slash_notMem
  exact (endsInName_iff hsplit).2 h.counts

/-- Paths can be joined from either end. -/
theorem join_join (hq : q.isAbsolute = false) (base p : Path) : base.join (p.join q) = (base.join p).join q := by
  by_cases hp : p.text = []
  · -- an empty path leaves at most a separator behind the base
    have hjoin : p.join q = q := by
      rw [join, hq, if_neg (by decide), if_pos (by simp [hp]), hp, List.nil_append]
    have habsolute : p.isAbsolute = false := by simp [isAbsolute, hp]
    rw [hjoin]
    by_cases hend : base.text.isEmpty || base.text.getLast? = some '/'
    · have hbase : base.join p = base := by
        rw [join, habsolute, if_neg (by decide), if_pos hend, hp, List.append_nil]
      rw [hbase]
    · have hbase : base.join p = ⟨base.text ++ ['/']⟩ := by
        rw [join, habsolute, if_neg (by decide), if_neg hend, hp]
      rw [hbase, join, hq, if_neg (by decide), if_neg hend, join, hq, if_neg (by decide), if_pos (by simp)]
      simp
  · have hfront : ∃ front, ∀ u, base.join ⟨p.text ++ u⟩ = ⟨front ++ (p.text ++ u)⟩ := by
      have habsolute : ∀ u, (Path.mk (p.text ++ u)).isAbsolute = p.isAbsolute := by
        intro u
        simp [isAbsolute, List.head?_append_of_ne_nil _ hp]
      simp only [join, habsolute]
      split
      · exact ⟨[], fun u => rfl⟩
      · split
        · exact ⟨base.text, fun u => rfl⟩
        · exact ⟨base.text ++ ['/'], fun u => by simp⟩
    have hbehind : ∃ behind, ∀ front, (Path.mk (front ++ p.text)).join q = ⟨front ++ (p.text ++ behind)⟩ := by
      have hlast : ∀ front, (front ++ p.text).getLast? = p.text.getLast? := fun front =>
        List.getLast?_append_of_ne_nil front hp
      have hempty : ∀ front, (front ++ p.text).isEmpty = false := fun front => by simp [hp]
      simp only [join, hq, hlast, hempty, Bool.false_or]
      by_cases hend : p.text.getLast? = some '/'
      · exact ⟨q.text, fun front => by simp [hend]⟩
      · exact ⟨'/' :: q.text, fun front => by simp [hend]⟩
    obtain ⟨front, hfront⟩ := hfront
    obtain ⟨behind, hbehind⟩ := hbehind
    have hjoin : p.join q = ⟨p.text ++ behind⟩ := hbehind []
    have hbase : base.join p = ⟨front ++ p.text⟩ := by simpa using hfront []
    rw [hjoin, hfront, hbase, hbehind]

theorem join_append (hl : l ≠ []) (hm : m ≠ []) :
    Text.join ['/'] (l ++ m) = Text.join ['/'] l ++ '/' :: Text.join ['/'] m := by
  induction l with
  | nil => exact absurd rfl hl
  | cons a l ih =>
    cases l with
    | nil =>
      obtain ⟨b, m, rfl⟩ := List.exists_cons_of_ne_nil hm
      exact List.append_assoc a ['/'] _
    | cons b l =>
      show a ++ ['/'] ++ Text.join ['/'] (b :: l ++ m) = a ++ ['/'] ++ Text.join ['/'] (b :: l) ++ _
      rw [ih (List.cons_ne_nil b l)]
      simp

theorem join_concat (hne : l ≠ []) (s : Text) : Text.join ['/'] (l ++ [s]) = Text.join ['/'] l ++ '/' :: s :=
  join_append hne (List.cons_ne_nil s [])

theorem join_ofNames (hl : l ≠ []) (h : ∀ s ∈ l, IsName s) (hm : m ≠ []) (hnames : ∀ s ∈ m, IsName s) :
    (ofNames l).join (ofNames m) = ofNames (l ++ m) := by
  have habsolute : (ofNames m).isAbsolute = false := (ordinary_ofNames hm hnames).isAbsolute_eq
  have hempty : (ofNames l).text.isEmpty = false := by
    simpa using (ordinary_ofNames hl h).ne_nil
  have hlast : (ofNames l).text.getLast? ≠ some '/' := by
    intro hlast
    obtain ⟨u, hu⟩ := List.getLast?_eq_some_iff.1 hlast
    -- a text that ends in a separator has an empty segment behind it
    have hsplit : Text.split '/' (ofNames l).text = Text.split '/' u ++ [[]] := by
      rw [hu]
      exact Text.split_append_sep '/' u []
    rw [split_ofNames hl h] at hsplit
    exact absurd (h [] (by rw [hsplit]; simp)).counts (by decide)
  have htext : (ofNames (l ++ m)).text = (ofNames l).text ++ '/' :: (ofNames m).text := join_append hl hm
  rw [join, if_neg (by simp [habsolute]), if_neg (by simp [hempty, hlast])]
  exact congrArg Path.mk htext.symm

theorem joinText_ofNames (hne : l ≠ []) (h : ∀ s ∈ l, IsName s) (hs : IsName s) :
    (ofNames l).joinText s = ofNames (l ++ [s]) :=
  join_ofNames hne h (List.cons_ne_nil s []) (by simpa using hs)

theorem foldl_joinText_ofNames (hne : l ≠ []) (h : ∀ s ∈ l, IsName s) (hm : ∀ s ∈ m, IsName s) :
    m.foldl Path.joinText (ofNames l) = ofNames (l ++ m) := by
  induction m generalizing l with
  | nil => rw [List.append_nil, List.foldl_nil]
  | cons s m ih =>
    obtain ⟨hs, hm⟩ := List.forall_mem_cons.1 hm
    have hl : ∀ u ∈ l ++ [s], IsName u := List.forall_mem_append.2 ⟨h, by simpa using hs⟩
    rw [List.foldl_cons, joinText_ofNames hne h hs, ih (by simp) hl hm, List.append_assoc]
    rfl

theorem dropFillerAtEnd_eq_self (h : ∀ s ∈ l, IsName s) : dropFillerAtEnd l = l := by
  obtain ⟨fillers, hfillers, heq⟩ := eq_dropFillerAtEnd_append l
  have hnil : fillers = [] := by
    refine List.eq_nil_iff_forall_not_mem.2 fun s hs => ?_
    have hcounts := (h s (by rw [heq]; exact List.mem_append_right _ hs)).counts
    rw [hfillers s hs] at hcounts
    cases hcounts
  rw [hnil, List.append_nil] at heq
  exact heq.symm

/-- The path above. -/
theorem parent?_ofNames (h : ∀ u ∈ front ++ [s], IsName u) : (ofNames (front ++ [s])).parent? = some (ofNames front) := by
  have hfront : ∀ u ∈ front, IsName u := fun u hu => h u (List.mem_append_left _ hu)
  rw [parent?, segments_ofNames (by simp) h, dropFillerAtEnd_eq_self h, List.reverse_concat]
  show some (ofSegments none (dropFillerAtEnd front.reverse.reverse)) = _
  rw [List.reverse_reverse, dropFillerAtEnd_eq_self hfront]
  rfl

theorem dropWhile_isFiller_eq_self (h : ∀ s ∈ l, IsName s) : l.dropWhile isFiller = l := by
  cases l with
  | nil => rfl
  | cons s l => exact List.dropWhile_cons_of_neg (by simp [(h s List.mem_cons_self).counts])

theorem dropSegments_append (hl : ∀ s ∈ l, IsName s) (hm : ∀ s ∈ m, IsName s) :
    dropSegments l.length (l ++ m) = m := by
  induction l with
  | nil => exact dropWhile_isFiller_eq_self hm
  | cons s l ih =>
    have hall : ∀ u ∈ s :: l ++ m, IsName u := List.forall_mem_append.2 ⟨hl, hm⟩
    rw [List.length_cons, dropSegments, dropWhile_isFiller_eq_self hall]
    exact ih fun u hu => hl u (List.mem_cons_of_mem s hu)

/-- A path without the one above. -/
theorem relativeTo_ofNames (hl : ∀ s ∈ l, IsName s) (hne : l ≠ []) (hm : ∀ s ∈ m, IsName s) :
    (ofNames (l ++ m)).relativeTo (ofNames l) = ofNames m := by
  have hall : ∀ s ∈ l ++ m, IsName s := List.forall_mem_append.2 ⟨hl, hm⟩
  have hprefix : (ofNames l).isPrefixOf (ofNames (l ++ m)) := by
    rw [isPrefixOf, List.isPrefixOf_iff_prefix, components_ofNames hl, components_ofNames hall]
    exact (List.prefix_append l m).map _
  have hlength : (ofNames l).components.length = l.length := by rw [components_ofNames hl, List.length_map]
  have hrelative : (ofNames (l ++ m)).relativeTo? (ofNames l) = some (ofNames m) := by
    rw [relativeTo?, if_pos hprefix, hlength, segments_ofNames (by simp [hne]) hall]
    split
    · next hzero _ => exact absurd (List.length_eq_zero_iff.1 hzero) hne
    · next heq _ =>
      obtain ⟨rfl, rfl⟩ := Prod.mk.inj heq
      show some (ofSegments none (dropFillerAtEnd (dropSegments l.length (l ++ m)))) = _
      rw [dropSegments_append hl hm, dropFillerAtEnd_eq_self hm]
      rfl
  rw [relativeTo, hrelative, Option.getD_some]

/-! ## Extensions -/

theorem splitName_append (hstem : stem ≠ []) (hextension : '.' ∉ extension) :
    splitName (stem ++ '.' :: extension) = (stem, some extension) := by
  have hreverse : (stem ++ '.' :: extension).reverse = extension.reverse ++ '.' :: stem.reverse := by simp
  have hnone : '.' ∉ extension.reverse := by simpa using hextension
  have hsplit := Text.splitOnce?_append hnone stem.reverse
  rw [splitName, hreverse, hsplit]
  simp [hstem]

/-- A name with an extension is its stem, a dot and the extension. -/
theorem eq_append_of_splitName (h : splitName s = (stem, some extension)) :
    s = stem ++ '.' :: extension ∧ stem ≠ [] ∧ '.' ∉ extension := by
  unfold splitName at h
  split at h
  · next after before hsplit =>
    split at h
    · cases h
    · next hbefore =>
      obtain ⟨rfl, hafter⟩ := Prod.mk.inj h
      obtain rfl := Option.some.inj hafter
      have hreverse := congrArg List.reverse (OpenTag.splitOnce?_eq_append hsplit)
      refine ⟨by simpa using hreverse, by simpa using hbefore, ?_⟩
      simpa using Text.notMem_of_splitOnce? hsplit
  · cases h

/-- A name without an extension is its stem. -/
theorem eq_of_splitName_none (h : splitName s = (stem, none)) : s = stem := by
  unfold splitName at h
  split at h
  · split at h
    · exact (Prod.mk.inj h).1
    · cases h
  · exact (Prod.mk.inj h).1

theorem extension?_ofNames (h : ∀ u ∈ front ++ [s], IsName u) :
    (ofNames (front ++ [s])).extension? = (splitName s).2 := by
  rw [extension?, fileName?_ofNames h, Option.bind_some]

theorem stem?_ofNames (h : ∀ u ∈ front ++ [s], IsName u) :
    (ofNames (front ++ [s])).stem? = some (splitName s).1 := by
  rw [stem?, fileName?_ofNames h, Option.map_some]

/-- A visible name without its extension is a name. -/
theorem IsName.of_stem (h : IsName (stem ++ '.' :: extension)) (hstem : stem ≠ []) (hvisible : stem.head? ≠ some '.') :
    IsName stem ∧ IsName (stem ++ ['.']) := by
  have hslash : '/' ∉ stem := fun hmem => h.slash_notMem (List.mem_append_left _ hmem)
  obtain ⟨c, r, rfl⟩ := List.exists_cons_of_ne_nil hstem
  have hc : c ≠ '.' := by simpa using hvisible
  refine ⟨⟨?_, ?_, hslash⟩, ⟨?_, ?_, ?_⟩⟩
  · simp [isFiller, hc]
  · simp [hc]
  · simp [isFiller, hc]
  · simp [hc]
  · simpa using hslash

theorem setExtension_ofNames (h : ∀ u ∈ front ++ [s], IsName u) (e : Text) :
    setExtension e (ofNames (front ++ [s])) =
      ofNames (front ++ [if e.isEmpty then (splitName s).1 else (splitName s).1 ++ '.' :: e]) := by
  rw [setExtension, stem?_ofNames h, segments_ofNames (by simp) h, dropFillerAtEnd_eq_self h, List.dropLast_concat]
  rfl

/-- Without the characters of the extension, a dot is left at the end. -/
theorem take_extension_ofNames (front : List Text) (stem extension : Text) :
    (ofNames (front ++ [stem ++ '.' :: extension])).text.take
        ((ofNames (front ++ [stem ++ '.' :: extension])).text.length - extension.length) =
      (ofNames (front ++ [stem ++ ['.']])).text := by
  have htext : (ofNames (front ++ [stem ++ '.' :: extension])).text =
      (ofNames (front ++ [stem ++ ['.']])).text ++ extension := by
    by_cases hnil : front = []
    · subst hnil
      show stem ++ '.' :: extension = stem ++ ['.'] ++ extension
      simp
    · simp [ofNames, join_concat hnil]
  rw [htext, List.length_append, Nat.add_sub_cancel, List.take_left']
  rfl

/-- A path of names gets another extension, unless the stem of the last name is a single dot. -/
theorem withExtension_ofNames (h : ∀ u ∈ front ++ [s], IsName u) (hdot : (splitName s).1 ≠ ['.']) (e : Text) :
    (ofNames (front ++ [s])).withExtension e =
      ofNames (front ++ [if e.isEmpty then (splitName s).1 else (splitName s).1 ++ '.' :: e]) := by
  rw [withExtension, extension?_ofNames h]
  rcases hsplit : splitName s with ⟨stem, old⟩
  cases old with
  | none =>
    have hset := setExtension_ofNames h e
    rwa [hsplit] at hset
  | some old =>
    rw [hsplit] at hdot
    obtain ⟨rfl, hstem, -⟩ := eq_append_of_splitName hsplit
    obtain ⟨hfront, hlast⟩ := List.forall_mem_append.1 h
    have hslash : '/' ∉ stem ++ '.' :: old := (hlast _ List.mem_cons_self).slash_notMem
    have hdotted : IsName (stem ++ ['.']) := by
      refine ⟨?_, ?_, ?_⟩
      · simp [isFiller, hstem]
      · intro heq
        exact hdot (List.append_inj' (heq : stem ++ ['.'] = ['.'] ++ ['.']) rfl).1
      · rw [List.mem_append, not_or] at hslash ⊢
        exact ⟨hslash.1, by decide⟩
    have hall : ∀ u ∈ front ++ [stem ++ ['.']], IsName u := List.forall_mem_append.2 ⟨hfront, by simpa using hdotted⟩
    have hagain : splitName (stem ++ ['.']) = (stem, some []) := splitName_append hstem List.not_mem_nil
    have hset := setExtension_ofNames hall e
    rw [hagain] at hset
    show setExtension e ⟨_⟩ = _
    rw [take_extension_ofNames]
    exact hset

/-- Where the stem is a single dot, two dots are left, which is no name that an extension can be put on. -/
theorem withExtension_ofNames_dot (hfront : ∀ u ∈ front, IsName u) (hs : IsName s) (hdot : (splitName s).1 = ['.'])
    (e : Text) : (ofNames (front ++ [s])).withExtension e = ofNames (front ++ [['.', '.']]) := by
  have h : ∀ u ∈ front ++ [s], IsName u := List.forall_mem_append.2 ⟨hfront, by simpa using hs⟩
  rw [withExtension, extension?_ofNames h]
  rcases hsplit : splitName s with ⟨stem, old⟩
  obtain rfl : stem = ['.'] := by rw [hsplit] at hdot; exact hdot
  cases old with
  | none =>
    -- without an extension the name would be the dot itself
    obtain rfl := eq_of_splitName_none hsplit
    cases hs.counts
  | some old =>
    obtain ⟨rfl, -, -⟩ := eq_append_of_splitName hsplit
    have hslash : ∀ u ∈ front ++ [['.', '.']], '/' ∉ u :=
      List.forall_mem_append.2 ⟨fun u hu => (hfront u hu).slash_notMem, by decide⟩
    have hhead : ∀ u ∈ (front ++ [['.', '.']]).head?, isFiller u = false := by
      intro u hu
      rcases List.mem_append.1 (List.mem_of_mem_head? hu) with hu | hu
      · exact (hfront u hu).counts
      · rw [List.mem_singleton.1 hu]
        rfl
    have hlast : (ofNames (front ++ [['.', '.']])).components.getLast? = some .parent := by
      rw [ofNames, components_join_segments hslash hhead, componentsOf_append]
      exact List.getLast?_concat
    have hname : (ofNames (front ++ [['.', '.']])).stem? = none := by
      rw [stem?, fileName?, hlast]
      rfl
    show setExtension e ⟨_⟩ = _
    rw [take_extension_ofNames]
    show setExtension e (ofNames (front ++ [['.', '.']])) = _
    rw [setExtension, hname]

/-- A path of visible names without the extension of the last one. -/
theorem withExtension_nil_ofNames (h : ∀ u ∈ front ++ [stem ++ '.' :: extension], IsName u) (hstem : stem ≠ [])
    (hvisible : stem.head? ≠ some '.') (hextension : '.' ∉ extension) :
    (ofNames (front ++ [stem ++ '.' :: extension])).withExtension [] = ofNames (front ++ [stem]) := by
  have hsplit : splitName (stem ++ '.' :: extension) = (stem, some extension) := splitName_append hstem hextension
  have hdot : (splitName (stem ++ '.' :: extension)).1 ≠ ['.'] := by
    rw [hsplit]
    exact fun heq => hvisible (congrArg List.head? heq)
  rw [withExtension_ofNames h hdot, hsplit]
  rfl

end Path

end Pagewright
