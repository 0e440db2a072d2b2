import Pagewright.Proofs.Template.Placeholder
import Pagewright.Proofs.Template.Tag

/-!
# Names that are filled in one after the other

`replaceNamed` fills in one name. Several names are filled in by a pass for each of them, and every pass reads what
the passes before it have put in. Four things live here:

* texts that the pass for a name leaves as they are, whatever follows them (`Placeholder.Skips`);
* forms, which are texts with blanks for names (`Form`): the passes for several names fill in all of their blanks at
  once, as long as no pass finds anything in the values of others (`Form.foldl_replaceNamed_fill`);
* the values for which this goes well in every form, which are those that the pass for the other name leaves as they
  are (`Form.forall_comm_iff_skips`);
* texts without nested braces, which are forms (`isForm_of_flat`).
-/

namespace Pagewright

variable {name key value ending u v r s t : Text} {names : List Text} {c : Char}

namespace Placeholder

/-! ## Texts without placeholders of a name -/

/-- What follows a placeholder of the name at the start of a text. -/
def named? (name t : Text) : Option Text :=
  (Text.after? ('\x7b' :: name) t).bind fun r => (tail? r).map Prod.snd

theorem named?_cons_of_ne (hc : c ≠ '\x7b') : named? name (c :: s) = none := by
  have hafter : Text.after? ('\x7b' :: name) (c :: s) = none := if_neg (Ne.symm hc)
  rw [named?, hafter]
  rfl

theorem named?_append (hname : '\x7d' ∉ name) (hs : '\x7d' ∈ s) (r : Text) :
    named? name (s ++ r) = (named? name s).map (· ++ r) := by
  have hopening : '\x7d' ∉ '\x7b' :: name := by
    rw [List.mem_cons, not_or]
    exact ⟨by decide, hname⟩
  rw [named?, named?, Text.after?_append_of_mem hopening hs]
  cases hafter : Text.after? ('\x7b' :: name) s with
  | none => rfl
  | some t =>
    have hclose : '\x7d' ∈ t := by
      rw [Text.after?_eq_some_iff.1 hafter, List.mem_append] at hs
      exact hs.resolve_left hopening
    simp only [Option.map_some, Option.bind_some, tail?_append hclose, Option.map_map]
    rfl

theorem length_lt_of_named? (h : named? name t = some r) : r.length < t.length := by
  obtain ⟨s, hafter, hs⟩ := Option.bind_eq_some_iff.1 h
  obtain ⟨⟨written, rest⟩, htail, rfl⟩ := Option.map_eq_some_iff.1 hs
  obtain ⟨u, hu, -, -⟩ := eq_append_of_tail? htail
  rw [Text.after?_eq_some_iff.1 hafter, hu]
  simp only [List.length_append, List.length_cons]
  omega

/-- No placeholder of the name begins in the text, whatever follows it. -/
def Skips (name t : Text) : Prop := ∀ s, s <:+ t → s ≠ [] → ∀ r, named? name (s ++ r) = none

theorem skips_of_notMem (h : '\x7b' ∉ t) : Skips name t := by
  intro s hs hn r
  obtain ⟨d, s, rfl⟩ := List.exists_cons_of_ne_nil hn
  apply named?_cons_of_ne
  rintro rfl
  exact h (hs.subset List.mem_cons_self)

theorem Skips.append (ht : Skips name t) (hu : Skips name u) : Skips name (t ++ u) := by
  induction t with
  | nil => exact hu
  | cons c t ih =>
    have htail : Skips name t := fun s hs => ht s (hs.trans (List.suffix_cons c t))
    intro s hs hn r
    rcases List.suffix_cons_iff.1 hs with rfl | hs
    · have hwhole := ht (c :: t) List.suffix_rfl (List.cons_ne_nil c t) (u ++ r)
      rwa [← List.append_assoc] at hwhole
    · exact ih htail s hs hn r

/-- In a closed text, placeholders can be looked for without what follows. -/
theorem skips_of_closed (hname : '\x7d' ∉ name) (hclosed : Closed t) (hfree : Text.Free (named? name) t) :
    Skips name t := by
  intro s hs hn r
  obtain ⟨d, s, rfl⟩ := List.exists_cons_of_ne_nil hn
  by_cases hd : d = '\x7b'
  · subst hd
    have hmem : '\x7d' ∈ '\x7b' :: s := List.mem_cons_of_mem _ (hclosed.mem_of_suffix hs)
    rw [named?_append hname hmem, hfree _ hs hn]
    rfl
  · exact named?_cons_of_ne hd

/-- A name as attributes have it: it can be read in a placeholder, and no placeholder begins in it. -/
def IsKey (name : Text) : Prop := ∀ c ∈ name, isPathChar c ∧ c ≠ '\x7b'

instance (name : Text) : Decidable (IsKey name) := inferInstanceAs (Decidable (∀ c ∈ name, _))

theorem IsKey.notMem_open (h : IsKey name) : '\x7b' ∉ name := fun hm => (h _ hm).2 rfl

theorem IsKey.notMem_close (h : IsKey name) : '\x7d' ∉ name := fun hm => absurd (h _ hm).1 (by decide)

/-- The placeholder of one name is none of another one. -/
theorem skips_blank {written : Option Text} (hname : IsKey name) (hkey : IsKey key) (hne : name ≠ key)
    (hending : tail? ending = some (written, [])) (hopen : '\x7b' ∉ ending) :
    Skips name ('\x7b' :: key ++ ending) := by
  have hbehind : '\x7b' ∉ key ++ ending := by
    rw [List.mem_append, not_or]
    exact ⟨hkey.notMem_open, hopen⟩
  obtain ⟨d, e, rfl, hd⟩ := head_of_tail? hending
  intro s hs hn r
  rcases List.suffix_cons_iff.1 hs with rfl | hs
  · rw [named?, Option.bind_eq_none_iff]
    intro t ht
    have htext : key ++ d :: (e ++ r) = name ++ t := by
      have := Text.after?_eq_some_iff.1 ht
      simpa using this
    rcases List.append_eq_append_iff.1 htext with ⟨w, hw, hwt⟩ | ⟨w, hw, hwt⟩
    · -- the name would go on with what ends the placeholder
      exfalso
      cases w with
      | nil => exact hne (by simpa using hw)
      | cons x w =>
        obtain rfl : d = x := (List.cons.inj hwt).1
        have hpath := (hname d (by simp [hw])).1
        rw [hd] at hpath
        cases hpath
    · cases w with
      | nil => exact absurd (by simpa using hw.symm) hne
      | cons x w =>
        have hx := (hkey x (by simp [hw])).1
        simp only [isPathChar, Bool.and_eq_true, bne_iff_ne, ne_eq, Bool.not_eq_true'] at hx
        rw [hwt]
        exact congrArg (Option.map Prod.snd) (tail?_cons_of_ne hx.1.1 hx.2)
  · exact skips_of_notMem hbehind s hs hn r

/-! ## Texts in which a placeholder can begin -/

private theorem ne_open_of_isBlank (hc : Text.isBlank c) : '\x7b' ≠ c := by
  rintro rfl
  exact absurd hc (by decide)

/-- A text that reaches into the white space, the word or the fallback can be gone on with as far as the brace. -/
private theorem exists_of_append_eq_or {blanks w rest : Text} {b x : Char}
    (hs : s ++ r = blanks ++ 'o' :: 'r' :: b :: x :: (w ++ '\x7d' :: rest)) (hc : Text.isBlank c)
    (hblanks : ∀ d ∈ blanks, Text.isBlank d) (hb : Text.isBlank b) (hclose : '\x7d' ∉ s) :
    ∃ z, '\x7b' ∉ z ∧ (tail? (c :: (s ++ z))).isSome := by
  have hsome : ∀ {blanks x w}, (∀ d ∈ blanks, Text.isBlank d) → '\x7d' ∉ x :: w →
      (tail? (c :: (blanks ++ 'o' :: 'r' :: b :: x :: (w ++ ['\x7d'])))).isSome := by
    intro blanks x w hblanks hw
    rw [tail?_or hc hblanks hb hw]
    rfl
  have hx : '\x7d' ∉ ['x'] := by decide
  have hbopen := ne_open_of_isBlank hb
  rcases List.append_eq_append_iff.1 hs with ⟨a, rfl, -⟩ | ⟨a, rfl, ha⟩
  · -- `s` ends in front of the word
    have hmem : '\x7b' ∉ a := fun hm => ne_open_of_isBlank (hblanks _ (List.mem_append_right s hm)) rfl
    refine ⟨a ++ 'o' :: 'r' :: b :: 'x' :: ['\x7d'], ?_, ?_⟩
    · simp [hmem, hbopen]
    · simpa using hsome hblanks hx
  · -- `s` ends in the word or behind it
    rcases a with _ | ⟨o, _ | ⟨p, _ | ⟨e, _ | ⟨y, a⟩⟩⟩⟩ <;>
      simp only [List.nil_append, List.cons_append, List.cons.injEq] at ha
    · exact ⟨'o' :: 'r' :: b :: 'x' :: ['\x7d'], by simp [hbopen], by simpa using hsome hblanks hx⟩
    · obtain ⟨rfl, -⟩ := ha
      exact ⟨'r' :: b :: 'x' :: ['\x7d'], by simp [hbopen], by simpa using hsome hblanks hx⟩
    · obtain ⟨rfl, rfl, -⟩ := ha
      exact ⟨b :: 'x' :: ['\x7d'], by simp [hbopen], by simpa using hsome hblanks hx⟩
    · obtain ⟨rfl, rfl, rfl, -⟩ := ha
      exact ⟨'x' :: ['\x7d'], by simp, by simpa using hsome hblanks hx⟩
    · obtain ⟨rfl, rfl, rfl, rfl, -⟩ := ha
      have hfallback : '\x7d' ∉ x :: a := fun hm => hclose (by simp [List.mem_cons.1 hm])
      exact ⟨['\x7d'], by decide, by simpa using hsome hblanks hfallback⟩

/-- What ends a placeholder does not have to open another one. -/
theorem exists_tail?_of_notMem {found : Option Text × Text} (h : tail? (s ++ r) = some found) :
    ∃ z, '\x7b' ∉ z ∧ (tail? (s ++ z)).isSome := by
  obtain ⟨written, rest⟩ := found
  by_cases hclose : '\x7d' ∈ s
  · rw [tail?_append hclose] at h
    obtain ⟨found, hs, -⟩ := Option.map_eq_some_iff.1 h
    exact ⟨[], by simp, by simp [hs]⟩
  · cases s with
    | nil => exact ⟨['\x7d'], by decide, rfl⟩
    | cons c s =>
      rw [List.mem_cons, not_or] at hclose
      rcases cases_of_tail? h with ⟨-, heq⟩ | ⟨d, blanks, b, x, w, -, heq, hd, hblanks, hb, -⟩
      · exact absurd (List.cons.inj heq).1.symm hclose.1
      · obtain ⟨rfl, hs⟩ := List.cons.inj heq
        exact exists_of_append_eq_or hs hd hblanks hb hclose.2

/-- If a placeholder begins in a text, it does so when what follows has no brace that opens. -/
theorem exists_named?_of_notMem (hname : IsKey name) (hs : s ≠ []) (h : named? name (s ++ r) = some t) :
    ∃ z, '\x7b' ∉ z ∧ (named? name (s ++ z)).isSome := by
  obtain ⟨behind, hafter, htail⟩ := Option.bind_eq_some_iff.1 h
  obtain ⟨found, hfound, -⟩ := Option.map_eq_some_iff.1 htail
  have htext : s ++ r = '\x7b' :: name ++ behind := Text.after?_eq_some_iff.1 hafter
  rcases List.append_eq_append_iff.1 htext with ⟨w, hw, hr⟩ | ⟨w, hw, hr⟩
  · -- the name goes on behind `s`
    have hnotMem : '\x7b' ∉ w := by
      obtain ⟨d, s, rfl⟩ := List.exists_cons_of_ne_nil hs
      obtain ⟨-, hname'⟩ := List.cons.inj hw
      exact fun hm => hname.notMem_open (hname' ▸ List.mem_append_right s hm)
    refine ⟨w ++ ['\x7d'], by simp [hnotMem], ?_⟩
    rw [← List.append_assoc, ← hw, named?, Text.after?_append_self]
    rfl
  · subst hr
    obtain ⟨z, hz, hsome⟩ := exists_tail?_of_notMem hfound
    refine ⟨z, hz, ?_⟩
    rw [hw, List.append_assoc, named?, Text.after?_append_self]
    simpa using hsome

end Placeholder

open Placeholder

/-! ## One pass -/

theorem replaceNamed_eq (name value : Text) :
    replaceNamed name value = Text.substitute fun t => (named? name t).map fun rest => (value, rest) := by
  unfold replaceNamed
  congr 1
  funext t
  rw [named?]
  cases Text.after? ('\x7b' :: name) t with
  | none => rfl
  | some r => cases hr : tail? r <;> simp [hr]

theorem replaceNamed_append_of_skips (h : Skips name u) (r : Text) :
    replaceNamed name value (u ++ r) = u ++ replaceNamed name value r := by
  rw [replaceNamed_eq]
  apply Text.substitute_append_left
  intro s hs hn
  rw [h s hs hn r]
  rfl

theorem replaceNamed_of_skips (h : Skips name u) : replaceNamed name value u = u := by
  have hnil : replaceNamed name value [] = [] := replaceNamed_of_notMem List.not_mem_nil
  have happend : replaceNamed name value (u ++ []) = u ++ replaceNamed name value [] :=
    replaceNamed_append_of_skips h []
  rwa [List.append_nil, hnil, List.append_nil] at happend

/-- Only where there is no placeholder of the name, a pass that puts in nothing changes nothing. -/
theorem free_of_replaceNamed_nil (h : replaceNamed name [] t = t) : Text.Free (named? name) t := by
  have hshort : ∀ s out rest : Text, (named? name s).map (fun rest => (([] : Text), rest)) = some (out, rest) →
      out.length + rest.length < s.length := by
    intro s out rest hs
    obtain ⟨rest', hrest, heq⟩ := Option.map_eq_some_iff.1 hs
    obtain ⟨rfl, rfl⟩ := Prod.mk.inj heq
    have hlt := length_lt_of_named? hrest
    rw [List.length_nil]
    omega
  rw [replaceNamed_eq] at h
  intro s hs hn
  exact Option.map_eq_none_iff.1 (Text.free_of_substitute_eq_self hshort h s hs hn)

/-! ## Forms -/

/-- A text with blanks: words, or words, the placeholder of a name with its ending, and the rest. -/
inductive Form
  | words (u : Text)
  | blank (u name ending : Text) (rest : Form)

namespace Form

variable {f : Form} {values : Text → Option Text} {as : Attributes}

/-- The text of a form in which the blanks of some names are filled in, all at once. -/
def fill (values : Text → Option Text) : Form → Text
  | words u => u
  | blank u name ending rest => u ++ ((values name).getD ('\x7b' :: name ++ ending) ++ rest.fill values)

/-- A form as it is written. -/
def write (f : Form) : Text := f.fill fun _ => none

/-- All placeholders of the names are blanks of the form: none begins in the words between them or in the blank of
another name. -/
def Proper (names : List Text) : Form → Prop
  | words u => ∀ n ∈ names, Skips n u
  | blank u name ending rest =>
    (∀ n ∈ names, Skips n u) ∧ (∃ written, tail? ending = some (written, [])) ∧
      (∀ n ∈ names, n ≠ name → Skips n ('\x7b' :: name ++ ending)) ∧ rest.Proper names

theorem Proper.of_subset {names' : List Text} (h : f.Proper names) (hsub : names' ⊆ names) : f.Proper names' := by
  induction f with
  | words u => exact fun n hn => h n (hsub hn)
  | blank u name ending rest ih =>
    obtain ⟨hu, hending, hblank, hrest⟩ := h
    exact ⟨fun n hn => hu n (hsub hn), hending, fun n hn => hblank n (hsub hn), ih hrest⟩

/-- One pass fills in the blanks of its name. -/
theorem replaceNamed_fill (h : f.Proper names) (hname : name ∈ names) (hnone : values name = none)
    (hskips : ∀ n v, values n = some v → Skips name v) (value : Text) :
    replaceNamed name value (f.fill values) = f.fill fun n => if n = name then some value else values n := by
  induction f with
  | words u => exact replaceNamed_of_skips (h name hname)
  | blank u n ending rest ih =>
    obtain ⟨hu, ⟨written, hending⟩, hblank, hrest⟩ := h
    rw [fill, fill, replaceNamed_append_of_skips (hu name hname)]
    by_cases hn : n = name
    · -- the blank has not been filled in, and the pass reads it as far as its ending goes
      subst hn
      have hclose : '\x7d' ∈ ending := by
        obtain ⟨w, rfl, -⟩ := eq_append_of_tail? hending
        simp
      have hafter : Text.after? ('\x7b' :: n) ('\x7b' :: n ++ ending ++ rest.fill values) =
          some (ending ++ rest.fill values) := by
        rw [List.append_assoc, Text.after?_append_self]
      have htail : tail? (ending ++ rest.fill values) = some (written, rest.fill values) := by
        rw [tail?_append hclose, hending]
        rfl
      rw [hnone, if_pos rfl, Option.getD_none, Option.getD_some, replaceNamed_of_tail? hafter htail, ih hrest]
    · rw [if_neg hn]
      cases hvalue : values n with
      | none =>
        rw [Option.getD_none, replaceNamed_append_of_skips (hblank name hname (Ne.symm hn)), ih hrest]
      | some v =>
        rw [Option.getD_some, replaceNamed_append_of_skips (hskips n v hvalue), ih hrest]

theorem replaceNamed_write (h : f.Proper names) (hname : name ∈ names) (value : Text) :
    replaceNamed name value f.write = f.fill fun n => if n = name then some value else none :=
  replaceNamed_fill h hname rfl (fun _ _ hv => by cases hv) value

/-! ## Several passes -/

/-- No placeholder of one attribute begins in what is put in for another one. -/
def Apart (resolve : Text → Text) (as : Attributes) : Prop :=
  ∀ n v, (n, v) ∈ as → ∀ m ∈ as.map Prod.fst, m ≠ n → Skips m (resolve v)

theorem apart_of_closed {resolve : Text → Text} (hkeys : ∀ n ∈ as.map Prod.fst, IsKey n)
    (h : ∀ a ∈ as, Closed (resolve a.2) ∧
      ∀ m ∈ as.map Prod.fst, m ≠ a.1 → Text.Free (named? m) (resolve a.2)) : Apart resolve as := by
  intro n v hv m hm hne
  obtain ⟨hclosed, hfree⟩ := h (n, v) hv
  exact skips_of_closed (hkeys m hm).notMem_close hclosed (hfree m hm hne)

/-- The passes for several names fill in all of their blanks at once. -/
theorem foldl_replaceNamed_fill {resolve : Text → Text} (h : f.Proper names) (hnames : as.map Prod.fst ⊆ names)
    (hnodup : (as.map Prod.fst).Nodup) (hapart : Apart resolve as) (hnone : ∀ n ∈ as.map Prod.fst, values n = none)
    (hvalues : ∀ n v, values n = some v → ∀ m ∈ as.map Prod.fst, Skips m v) :
    as.foldl (fun t (n, v) => replaceNamed n (resolve v) t) (f.fill values) =
      f.fill fun n => ((as.get? n).map resolve).or (values n) := by
  -- `values` has what the passes up to here have put in, and no later name begins in it
  induction as generalizing values with
  | nil => rfl
  | cons a as ih =>
    obtain ⟨key, value⟩ := a
    rw [List.map_cons, List.nodup_cons] at hnodup
    obtain ⟨hkey, hnodup⟩ := hnodup
    have hmem : key ∈ ((key, value) :: as).map Prod.fst := List.mem_cons_self
    have hrest : ∀ {m}, m ∈ as.map Prod.fst → m ∈ ((key, value) :: as).map Prod.fst := List.mem_cons_of_mem key
    have hpass := replaceNamed_fill h (hnames hmem) (hnone key hmem) (fun n v hv => hvalues n v hv key hmem) (resolve value)
    show as.foldl _ (replaceNamed key (resolve value) (f.fill values)) = _
    rw [hpass, ih (fun m hm => hnames (hrest hm)) hnodup]
    · congr 1
      funext n
      rw [Attributes.get?]
      by_cases hn : n = key
      · subst hn
        rw [Attributes.get?_eq_none_of_notMem hkey, if_pos rfl, if_pos rfl]
        rfl
      · rw [if_neg hn, if_neg (Ne.symm hn)]
    · exact fun n v hv m hm hne => hapart n v (List.mem_cons_of_mem _ hv) m (hrest hm) hne
    · intro n hn
      have hne : n ≠ key := by
        rintro rfl
        exact hkey hn
      rw [if_neg hne]
      exact hnone n (hrest hn)
    · intro n v hv m hm
      split at hv
      · next hn =>
        obtain rfl := Option.some.inj hv
        have hne : m ≠ key := by
          rintro rfl
          exact hkey hm
        exact hapart key value List.mem_cons_self m (hrest hm) hne
      · exact hvalues n v hv m (hrest hm)

theorem foldl_replaceNamed_write {resolve : Text → Text} (h : f.Proper (as.map Prod.fst))
    (hnodup : (as.map Prod.fst).Nodup) (hapart : Apart resolve as) :
    as.foldl (fun t (n, v) => replaceNamed n (resolve v) t) f.write = f.fill fun n => (as.get? n).map resolve := by
  rw [write, foldl_replaceNamed_fill h (List.Subset.refl _) hnodup hapart (fun _ _ => rfl) (by simp)]
  simp only [Option.or_none]

/-- The order of the passes does not matter. -/
theorem foldl_replaceNamed_perm {as' : Attributes} {resolve : Text → Text} (h : f.Proper (as.map Prod.fst))
    (hperm : as.Perm as') (hnodup : (as.map Prod.fst).Nodup) (hapart : Apart resolve as) :
    as.foldl (fun t (n, v) => replaceNamed n (resolve v) t) f.write =
      as'.foldl (fun t (n, v) => replaceNamed n (resolve v) t) f.write := by
  have hnames : ∀ {m}, m ∈ as'.map Prod.fst ↔ m ∈ as.map Prod.fst := (hperm.map Prod.fst).symm.mem_iff
  have hproper : f.Proper (as'.map Prod.fst) := h.of_subset fun m hm => hnames.1 hm
  have hapart' : Apart resolve as' := fun n v hv m hm hne => hapart n v (hperm.mem_iff.2 hv) m (hnames.1 hm) hne
  rw [foldl_replaceNamed_write h hnodup hapart,
    foldl_replaceNamed_write hproper ((hperm.map Prod.fst).nodup_iff.1 hnodup) hapart']
  simp only [Attributes.get?_perm hperm hnodup]

/-! ## Values that can be captured -/

/-- The order of two passes does not matter in any form if and only if the pass for the one name leaves the value of
the other one as it is. -/
theorem forall_comm_iff_skips (hname : IsKey name) (hkey : IsKey key) (hne : name ≠ key) :
    (∀ (f : Form) (w : Text), f.Proper [name, key] → Skips name w →
      replaceNamed key w (replaceNamed name value f.write) = replaceNamed name value (replaceNamed key w f.write)) ↔
      Skips key value := by
  constructor
  · intro h s hs hn r
    cases hfound : named? key (s ++ r) with
    | none => rfl
    | some rest =>
      exfalso
      -- the form is the blank and what ends the placeholder that begins in the value
      obtain ⟨z, hz, hsome⟩ := exists_named?_of_notMem hkey hn hfound
      let f : Form := .blank [] name ['\x7d'] (.words z)
      have hproper : f.Proper [name, key] := by
        refine ⟨fun n _ => skips_of_notMem List.not_mem_nil, ⟨none, rfl⟩, ?_, fun n _ => skips_of_notMem hz⟩
        intro n hn hnn
        have hnkey : n = key := by simpa [hnn] using hn
        exact skips_blank (hnkey ▸ hkey) hname hnn rfl (by decide)
      have hvalue : replaceNamed name value f.write = value ++ z := by
        rw [replaceNamed_write hproper List.mem_cons_self]
        simp [fill, f]
      have hkept : replaceNamed key [] f.write = f.write := by
        have hmem : key ∈ [name, key] := List.mem_cons_of_mem name List.mem_cons_self
        rw [replaceNamed_write hproper hmem]
        simp [write, fill, f, hne]
      have hcomm := h f [] hproper (skips_of_notMem List.not_mem_nil)
      rw [hkept, hvalue] at hcomm
      have hsuffix : s ++ z <:+ value ++ z := by
        obtain ⟨w, rfl⟩ := hs
        exact ⟨w, by simp⟩
      rw [free_of_replaceNamed_nil hcomm (s ++ z) hsuffix (by simp [hn])] at hsome
      cases hsome
  · intro hvalue f w hproper hw
    have hapart : Apart id [(name, value), (key, w)] := by
      intro n v hv m hm hmn
      simp only [List.mem_cons, List.not_mem_nil, or_false, Prod.mk.injEq, List.map_cons, List.map_nil] at hv hm
      rcases hv with ⟨rfl, rfl⟩ | ⟨rfl, rfl⟩
      · rcases hm with rfl | rfl
        · exact absurd rfl hmn
        · exact hvalue
      · rcases hm with rfl | rfl
        · exact hw
        · exact absurd rfl hmn
    have hperm : [(name, value), (key, w)].Perm [(key, w), (name, value)] := .swap _ _ _
    have hnames : f.Proper ([(name, value), (key, w)].map Prod.fst) := hproper
    exact foldl_replaceNamed_perm hnames hperm (by simpa using hne) hapart

/-! ## Texts without nested braces -/

/-- The text put in front of a form. -/
def prepend (u : Text) : Form → Form
  | words v => words (u ++ v)
  | blank v name ending rest => blank (u ++ v) name ending rest

theorem write_prepend (u : Text) (f : Form) : (f.prepend u).write = u ++ f.write := by
  cases f <;> simp [prepend, write, fill]

theorem Proper.prepend (h : f.Proper names) (hu : ∀ n ∈ names, Skips n u) : (f.prepend u).Proper names := by
  cases f with
  | words v => exact fun n hn => (hu n hn).append (h n hn)
  | blank v name ending rest => exact ⟨fun n hn => (hu n hn).append (h.1 n hn), h.2⟩

end Form

/-- A text that is a form for the names. -/
def IsForm (names : List Text) (t : Text) : Prop := ∃ f : Form, f.Proper names ∧ f.write = t

/-- Behind every brace that opens, the next brace is one that closes. -/
def Flat : Text → Prop
  | [] => True
  | c :: t => (c = '\x7b' → t.find? (fun d => d = '\x7b' || d = '\x7d') = some '\x7d') ∧ Flat t

instance decidableFlat : (t : Text) → Decidable (Flat t)
  | [] => .isTrue trivial
  | c :: t =>
    have := decidableFlat t
    inferInstanceAs (Decidable ((c = '\x7b' → t.find? _ = some '\x7d') ∧ Flat t))

theorem Flat.of_suffix (h : Flat t) (hs : s <:+ t) : Flat s := by
  induction t with
  | nil => rwa [List.suffix_nil.1 hs]
  | cons c t ih =>
    rcases List.suffix_cons_iff.1 hs with rfl | hs
    · exact h
    · exact ih h.2 hs

/-- A brace that opens, what stands up to the one that closes, and the rest. -/
theorem Flat.exists_append (h : Flat ('\x7b' :: t)) : ∃ u r, t = u ++ '\x7d' :: r ∧ '\x7b' ∉ u ∧ '\x7d' ∉ u := by
  obtain ⟨-, u, r, rfl, hu⟩ := List.find?_eq_some_iff_append.1 (h.1 rfl)
  refine ⟨u, r, rfl, fun hm => ?_, fun hm => ?_⟩
  · simpa using hu _ hm
  · simpa using hu _ hm

/-- A text in braces is the placeholder of one name, or it is none of any name. -/
theorem exists_ending_or_skips (hkeys : ∀ n ∈ names, IsKey n) (hu : '\x7b' ∉ u) (hu' : '\x7d' ∉ u) :
    (∃ n ∈ names, ∃ ending written, u ++ ['\x7d'] = n ++ ending ∧ tail? ending = some (written, [])) ∨
      ∀ n ∈ names, Skips n ('\x7b' :: (u ++ ['\x7d'])) := by
  by_cases hfound : ∃ n ∈ names, (named? n ('\x7b' :: (u ++ ['\x7d']))).isSome
  · obtain ⟨n, hn, hsome⟩ := hfound
    obtain ⟨rest, hrest⟩ := Option.isSome_iff_exists.1 hsome
    obtain ⟨ending, hafter, hbehind⟩ := Option.bind_eq_some_iff.1 hrest
    obtain ⟨⟨written, rest'⟩, htail, rfl⟩ := Option.map_eq_some_iff.1 hbehind
    have htext : u ++ ['\x7d'] = n ++ ending := by
      have := Text.after?_eq_some_iff.1 hafter
      simpa using this
    -- there is one brace that closes, and nothing is behind it
    obtain ⟨x, hx, hx', -⟩ := eq_append_of_tail? htail
    have hbefore : '\x7d' ∉ n ++ x := by
      rw [List.mem_append, not_or]
      exact ⟨(hkeys n hn).notMem_close, hx'⟩
    have hsplit := Text.splitOnce?_append hbefore rest'
    rw [List.append_assoc, ← hx, ← htext, Text.splitOnce?_append hu'] at hsplit
    obtain ⟨-, rfl⟩ := Prod.mk.inj (Option.some.inj hsplit)
    exact .inl ⟨n, hn, ending, written, htext, htail⟩
  · right
    intro n hn
    apply skips_of_closed (hkeys n hn).notMem_close (closed_hole hu)
    intro s hs hne
    rcases List.suffix_cons_iff.1 hs with rfl | hs
    · cases hnamed : named? n ('\x7b' :: (u ++ ['\x7d'])) with
      | none => rfl
      | some rest => exact absurd ⟨n, hn, by simp [hnamed]⟩ hfound
    · have hrest : '\x7b' ∉ u ++ ['\x7d'] := by simp [hu]
      have hskips : Skips n (u ++ ['\x7d']) := skips_of_notMem hrest
      have hnone := hskips s hs hne []
      rwa [List.append_nil] at hnone

/-- Texts without nested braces are forms. -/
theorem isForm_of_flat (hkeys : ∀ n ∈ names, IsKey n) (h : Flat t) : IsForm names t := by
  -- on the length, because one step takes all of a text in braces
  induction hlen : t.length using Nat.strong_induction_on generalizing t with
  | _ n ih =>
    cases t with
    | nil => exact ⟨.words [], fun n _ => skips_of_notMem List.not_mem_nil, rfl⟩
    | cons c t =>
      by_cases hc : c = '\x7b'
      · subst hc
        obtain ⟨u, r, rfl, hu, hu'⟩ := h.exists_append
        have hr : Flat r := h.of_suffix ⟨'\x7b' :: (u ++ ['\x7d']), by simp⟩
        obtain ⟨f, hproper, rfl⟩ := ih r.length (by simp at hlen; omega) hr rfl
        rcases exists_ending_or_skips hkeys hu hu' with ⟨m, hm, ending, written, hending, htail⟩ | hskips
        · have hopen : '\x7b' ∉ ending := by
            intro hmem
            have hmem' : '\x7b' ∈ u ++ ['\x7d'] := hending ▸ List.mem_append_right m hmem
            simp [hu] at hmem'
          refine ⟨.blank [] m ending f, ⟨fun n _ => skips_of_notMem List.not_mem_nil, ⟨written, htail⟩, ?_, hproper⟩, ?_⟩
          · intro n hn hne
            exact skips_blank (hkeys n hn) (hkeys m hm) hne htail hopen
          · show '\x7b' :: m ++ ending ++ f.write = _
            rw [List.cons_append, ← hending]
            simp
        · refine ⟨f.prepend ('\x7b' :: (u ++ ['\x7d'])), hproper.prepend hskips, ?_⟩
          rw [Form.write_prepend]
          simp
      · obtain ⟨f, hproper, rfl⟩ := ih t.length (by simp at hlen; omega) h.2 rfl
        refine ⟨f.prepend [c], hproper.prepend fun n _ => skips_of_notMem ?_, Form.write_prepend [c] f⟩
        simpa using Ne.symm hc

end Pagewright
