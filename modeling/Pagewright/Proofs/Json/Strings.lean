import Mathlib.Tactic.IntervalCases
import Pagewright.Json.Display
import Pagewright.Proofs.Text.Occurrence

/-!
# The strings inside a JSON value

All that a user can write freely into a JSON text is in its strings (`Json.strings`): the names of fields
and the texts. The rest consists of a few characters (`Json.bareChars`). So a literal with another
character occurs in the JSON text just where it occurs in one of the strings, if nothing in it is escaped
(`Json.Verbatim`).
-/

namespace Pagewright

/-! ## Texts of numbers -/

namespace Json

/-- The characters that stand outside of quotes. -/
def bareChars : Text := "0123456789+-.eNaniflstru[],:\x7b\x7d".toList

end Json

open Json

private theorem mem_bareChars_of_isDigit {c : Char} (h : c.isDigit) : c ∈ bareChars := by
  have hc : c = Char.ofNat c.toNat := (Char.ofNat_toNat c).symm
  have h1 : 48 ≤ c.toNat ∧ c.toNat ≤ 57 := by
    simpa [Char.isDigit, UInt32.le_iff_toNat_le] using h
  obtain ⟨h1, h2⟩ := h1
  rw [hc]
  interval_cases c.toNat <;> decide

theorem Text.ofNat_subset_bareChars (n : Nat) : Text.ofNat n ⊆ bareChars := fun _ hc =>
  mem_bareChars_of_isDigit (Nat.isDigit_of_mem_toDigits (by decide) (by decide) hc)

theorem Text.ofInt_subset_bareChars (i : Int) : Text.ofInt i ⊆ bareChars := by
  cases i with
  | ofNat n => exact Text.ofNat_subset_bareChars n
  | negSucc n => exact List.cons_subset.2 ⟨by decide, Text.ofNat_subset_bareChars (n + 1)⟩

namespace Binary64

private theorem zeros_subset_bareChars (n : Nat) : List.replicate n '0' ⊆ bareChars :=
  fun _ hc => List.eq_of_mem_replicate hc ▸ by decide

private theorem signText_subset_bareChars (s : Bool) : signText s ⊆ bareChars := by
  cases s <;> decide

private theorem withPoint_subset_bareChars {ds : Text} (h : ds ⊆ bareChars) (n : Nat) :
    withPoint ds n ⊆ bareChars := by
  unfold withPoint
  split
  · exact List.append_subset.2
      ⟨List.append_subset.2 ⟨by decide, zeros_subset_bareChars _⟩, h⟩
  · refine List.append_subset.2 ⟨fun c hc => h (List.mem_of_mem_take hc), ?_⟩
    exact List.cons_subset.2 ⟨by decide, fun c hc => h (List.mem_of_mem_drop hc)⟩

private theorem positional_subset_bareChars (d : Nat) (k : Int) : positional d k ⊆ bareChars := by
  unfold positional
  simp only
  split
  · exact List.append_subset.2 ⟨Text.ofNat_subset_bareChars d, zeros_subset_bareChars _⟩
  · exact withPoint_subset_bareChars (Text.ofNat_subset_bareChars d) _

theorem plainText_subset_bareChars (x : Binary64) : x.plainText ⊆ bareChars := by
  cases x with
  | nan => decide
  | infinite s => exact List.append_subset.2 ⟨signText_subset_bareChars s, by decide⟩
  | finite s m e =>
    refine List.append_subset.2 ⟨signText_subset_bareChars s, ?_⟩
    split
    · decide
    · exact positional_subset_bareChars _ _

private theorem scientific_subset_bareChars {ds : Text} (h : ds ⊆ bareChars) (e : Int) :
    scientific ds e ⊆ bareChars := by
  unfold scientific
  simp only
  refine List.append_subset.2 ⟨?_, List.cons_subset.2 ⟨by decide, List.cons_subset.2
    ⟨by split <;> decide, Text.ofNat_subset_bareChars _⟩⟩⟩
  split
  · simp only [List.cons_subset] at h ⊢
    exact ⟨h.1, by decide, h.2⟩
  · exact h

theorem scientificText_subset_bareChars (x : Binary64) : x.scientificText ⊆ bareChars := by
  cases x with
  | nan => decide
  | infinite s => exact plainText_subset_bareChars (.infinite s)
  | finite s m e =>
    refine List.append_subset.2 ⟨signText_subset_bareChars s, ?_⟩
    split
    · decide
    · simp only
      split
      · refine List.append_subset.2 ⟨positional_subset_bareChars _ _, ?_⟩
        split <;> decide
      · exact scientific_subset_bareChars (Text.ofNat_subset_bareChars _) _

end Binary64

theorem Number.display_subset_bareChars (n : Number) : n.display ⊆ bareChars := by
  cases n with
  | int i => exact Text.ofInt_subset_bareChars i
  | real x => exact x.plainText_subset_bareChars

theorem Number.text_subset_bareChars (n : Number) : n.text ⊆ bareChars := by
  cases n with
  | int i => exact Text.ofInt_subset_bareChars i
  | real x =>
    simp only [Number.text]
    split
    · exact x.scientificText_subset_bareChars
    · decide

namespace Json

/-! ## The strings of a value -/

mutual

/-- The strings of a value, names of fields included, in the order in which they are written. -/
def strings : Json → List Text
  | null | bool _ | number _ => []
  | string t => [t]
  | array items => stringsOfItems items
  | object fields => stringsOfFields fields

/-- The strings of a list of values. -/
def stringsOfItems : List Json → List Text
  | [] => []
  | v :: rest => strings v ++ stringsOfItems rest

/-- The strings of a list of fields. -/
def stringsOfFields : List (Text × Json) → List Text
  | [] => []
  | (k, v) :: rest => k :: strings v ++ stringsOfFields rest

end

/-- A text that consists of bare characters and of the given strings in quotes. -/
inductive Written : Text → List Text → Prop
  | nil : Written [] []
  | bare {c : Char} {w : Text} {ss : List Text} : c ∈ bareChars → Written w ss → Written (c :: w) ss
  | quoted {w : Text} {ss : List Text} (s : Text) :
    Written w ss → Written (quote s ++ w) (s :: ss)

namespace Written

variable {u w m : Text} {ss ss' : List Text} {x : Char} {ys : Text}

theorem of_subset (h : u ⊆ bareChars) : Written u [] := by
  induction u with
  | nil => exact nil
  | cons c u ih => exact bare (h List.mem_cons_self) (ih (List.cons_subset.1 h).2)

theorem append (hu : Written u ss) (hw : Written w ss') : Written (u ++ w) (ss ++ ss') := by
  induction hu with
  | nil => exact hw
  | bare hc _ ih => exact bare hc ih
  | quoted s _ ih => simpa only [List.append_assoc, List.cons_append] using quoted s ih

theorem quote (s : Text) : Written (Json.quote s) [s] := by
  simpa using quoted s nil

/-- Behind bare characters, a literal with a character that is not bare and without quotes occurs in one
of the strings. -/
theorem infix_append_iff (h : Written w ss) (hu : u ⊆ bareChars) (hq : '"' ∉ x :: ys)
    (hm : ∃ c ∈ x :: ys, c ∉ bareChars) :
    x :: ys <:+: u ++ w ↔ ∃ s ∈ ss, x :: ys <:+: s.flatMap escapeChar := by
  have hbare : ∀ {u : Text}, u ⊆ bareChars → ¬ x :: ys <:+: u := fun hu hi => by
    obtain ⟨c, hc, hn⟩ := hm
    exact hn (hu (hi.subset hc))
  induction h generalizing u with
  | nil => simpa using hbare hu
  | @bare c w ss hc _ ih =>
    have huc : u ++ [c] ⊆ bareChars := List.append_subset.2 ⟨hu, by simpa using hc⟩
    simpa using ih huc
  | @quoted w ss s _ ih =>
    -- the quotes keep the string apart from what is in front of it and behind it
    have heq : u ++ (Json.quote s ++ w) = u ++ '"' :: (s.flatMap escapeChar ++ '"' :: ([] ++ w)) := by
      simp [Json.quote]
    have hw : x :: ys <:+: [] ++ w ↔ ∃ s ∈ ss, x :: ys <:+: s.flatMap escapeChar :=
      ih (List.nil_subset bareChars)
    rw [heq, Text.infix_append_cons_iff hq, Text.infix_append_cons_iff hq, hw]
    simp [hbare hu]

end Written

mutual

theorem written_compact (v : Json) : Written v.compact v.strings := by
  match v with
  | null => exact .of_subset (by decide)
  | bool b => exact .of_subset (by cases b <;> decide)
  | number n => exact .of_subset n.text_subset_bareChars
  | string t => exact .quote t
  | array items =>
    have h := (written_compactItems items).append (.of_subset (u := [']']) (by decide))
    rw [List.append_nil] at h
    exact .bare (by decide) h
  | object fields =>
    have h := (written_compactFields fields).append (.of_subset (u := ['\x7d']) (by decide))
    rw [List.append_nil] at h
    exact .bare (by decide) h

theorem written_compactItems (items : List Json) :
    Written (compactItems items) (stringsOfItems items) := by
  match items with
  | [] => exact .nil
  | [v] => simpa [compactItems, stringsOfItems] using written_compact v
  | v :: w :: rest =>
    exact (written_compact v).append (.bare (by decide) (written_compactItems (w :: rest)))

theorem written_compactFields (fields : List (Text × Json)) :
    Written (compactFields fields) (stringsOfFields fields) := by
  match fields with
  | [] => exact .nil
  | [(k, v)] =>
    simpa [compactFields, stringsOfFields] using
      (Written.quote k).append (.bare (c := ':') (by decide) (written_compact v))
  | (k, v) :: f :: rest =>
    have h := ((Written.quote k).append (.bare (c := ':') (by decide) (written_compact v))).append
      (.bare (c := ',') (by decide) (written_compactFields (f :: rest)))
    simpa [compactFields, stringsOfFields] using h

end

/-! ## Literals that are written as they are -/

/-- The characters behind the backslash of an escape. -/
def escapeTails : Text := "\"\\'ntrbfu0123456789abcdef".toList

/-- A literal that a string keeps as it is, and that occurs nowhere outside of strings. -/
structure Verbatim (m : Text) : Prop where
  /-- None of its characters is escaped, neither for JSON nor for single quotes. -/
  plain : ∀ c ∈ m, escapeChar c = [c] ∧ c ≠ '\\' ∧ c ≠ '\''
  /-- It does not begin inside of an escape. -/
  head : ∀ c ∈ m.head?, c ∉ escapeTails
  /-- One of its characters stands in strings only. -/
  foreign : ∃ c ∈ m, c ∉ bareChars

instance (m : Text) : Decidable (Verbatim m) :=
  decidable_of_iff ((∀ c ∈ m, escapeChar c = [c] ∧ c ≠ '\\' ∧ c ≠ '\'') ∧
    (∀ c ∈ m.head?, c ∉ escapeTails) ∧ ∃ c ∈ m, c ∉ bareChars)
    ⟨fun h => ⟨h.1, h.2.1, h.2.2⟩, fun h => ⟨h.plain, h.head, h.foreign⟩⟩

private theorem digitChar_mem_escapeTails : ∀ n < 16, Nat.digitChar n ∈ escapeTails := by decide

theorem escapeChar_cases (c : Char) :
    escapeChar c = [c] ∨ ∃ w, escapeChar c = '\\' :: w ∧ w ⊆ escapeTails := by
  by_cases h : c.toNat < 32
  · refine Or.inr ?_
    have h1 : Nat.digitChar (c.toNat / 16) ∈ escapeTails := digitChar_mem_escapeTails _ (by omega)
    have h2 : Nat.digitChar (c.toNat % 16) ∈ escapeTails := digitChar_mem_escapeTails _ (by omega)
    have h3 : ['u', '0', '0'] ++ hexPair c.toNat ⊆ escapeTails :=
      List.append_subset.2 ⟨by decide, by simp [hexPair, h1, h2]⟩
    unfold escapeChar
    repeat' split
    all_goals first | exact ⟨_, rfl, by decide⟩ | exact ⟨_, rfl, h3⟩
  · unfold escapeChar
    repeat' split
    all_goals first | exact Or.inl rfl | exact Or.inr ⟨_, rfl, by decide⟩

variable {m s : Text} {c : Char}

theorem Verbatim.eq_cons (hm : Verbatim m) : ∃ x ys, m = x :: ys := by
  obtain ⟨c, hc, -⟩ := hm.foreign
  exact List.exists_cons_of_ne_nil (List.ne_nil_of_mem hc)

theorem Verbatim.quote_notMem (hm : Verbatim m) : '"' ∉ m := fun h => by
  have := (hm.plain _ h).1
  simp [escapeChar] at this

theorem Verbatim.infix_escape_iff (hm : Verbatim m) :
    m <:+: s.flatMap escapeChar ↔ m <:+: s := by
  obtain ⟨x, ys, rfl⟩ := hm.eq_cons
  refine Text.infix_flatMap_iff (fun c hc => (hm.plain c hc).1) fun c => ?_
  refine (escapeChar_cases c).imp_right fun ⟨w, hw, hsub⟩ => ⟨'\\', w, hw, ?_, ?_⟩
  · exact fun h => (hm.plain _ h).2.1 rfl
  · exact fun h => hm.head x (by simp) (hsub h)

/-- Such a literal occurs in the JSON text of a value just where it occurs in one of its strings. -/
theorem Verbatim.infix_compact_iff (hm : Verbatim m) (v : Json) :
    m <:+: v.compact ↔ ∃ s ∈ v.strings, m <:+: s := by
  obtain ⟨x, ys, rfl⟩ := hm.eq_cons
  have h := (written_compact v).infix_append_iff (List.nil_subset bareChars) hm.quote_notMem hm.foreign
  rw [List.nil_append] at h
  simp only [h, hm.infix_escape_iff]

theorem mem_strings_of_mem_compact (hc : Verbatim [c]) {v : Json} (h : c ∈ v.compact) :
    ∃ s ∈ v.strings, c ∈ s := by
  simpa only [List.singleton_infix_iff] using
    (hc.infix_compact_iff v).1 ((List.singleton_infix_iff c _).2 h)

mutual

/-- A character of a value on a page that is neither bare nor escaped is from one of its strings. -/
theorem mem_strings_of_mem_display (hc : Verbatim [c]) (hbar : c ≠ '|') (v : Json)
    (h : c ∈ v.display) : ∃ s ∈ v.strings, c ∈ s := by
  have hbare : ∀ {u : Text}, u ⊆ bareChars → c ∉ u := fun hu hcu => by
    obtain ⟨d, hd, hn⟩ := hc.foreign
    exact hn (hu (List.mem_singleton.1 hd ▸ hcu))
  match v with
  | null => exact absurd h (hbare (by decide))
  | bool b => exact absurd h (hbare (by cases b <;> decide))
  | number n => exact absurd h (hbare n.display_subset_bareChars)
  | string t => exact ⟨t, List.mem_singleton_self t, h⟩
  | array [] => simp [display] at h
  | array (v :: rest) =>
    rw [display] at h
    split at h
    · exact mem_strings_of_mem_compact hc h
    · exact mem_strings_of_mem_displayItems hc hbar (v :: rest) h
  | object fields =>
    rw [display] at h
    exact mem_strings_of_mem_compact hc h

theorem mem_strings_of_mem_displayItems (hc : Verbatim [c]) (hbar : c ≠ '|') (items : List Json)
    (h : c ∈ displayItems items) : ∃ s ∈ stringsOfItems items, c ∈ s := by
  match items with
  | [] => simp [displayItems] at h
  | [v] =>
    rw [displayItems] at h
    split at h
    · simp at h
    · simpa [stringsOfItems] using mem_strings_of_mem_display hc hbar v h
  | v :: w :: rest =>
    rw [displayItems, List.mem_append, List.mem_cons] at h
    rcases h with h | h | h
    · split at h
      · simp at h
      · obtain ⟨s, hs, hcs⟩ := mem_strings_of_mem_display hc hbar v h
        exact ⟨s, List.mem_append_left _ hs, hcs⟩
    · exact absurd h hbar
    · obtain ⟨s, hs, hcs⟩ := mem_strings_of_mem_displayItems hc hbar (w :: rest) h
      exact ⟨s, List.mem_append_right _ hs, hcs⟩

end

/-! ## Values inside of others -/

theorem strings_subset_of_mem {v : Json} {items : List Json} (h : v ∈ items) :
    v.strings ⊆ stringsOfItems items := by
  induction items with
  | nil => simp at h
  | cons w items ih =>
    rcases List.mem_cons.1 h with rfl | h
    · exact List.subset_append_left _ _
    · exact List.Subset.trans (ih h) (List.subset_append_right _ _)

theorem strings_subset_of_get? {v : Json} {key : Text} {fields : Fields}
    (h : fields.get? key = some v) : v.strings ⊆ stringsOfFields fields := by
  induction fields with
  | nil => simp [Fields.get?] at h
  | cons f fields ih =>
    obtain ⟨k, w⟩ := f
    rw [Fields.get?] at h
    split at h
    · rw [← Option.some.inj h]
      exact List.subset_cons_of_subset k (List.subset_append_left _ _)
    · exact List.Subset.trans (ih h)
        (List.subset_cons_of_subset k (List.subset_append_right _ _))

theorem strings_subset_of_child? {v w : Json} {key : Text} (h : v.child? key = some w) :
    w.strings ⊆ v.strings := by
  cases v with
  | object fields => exact strings_subset_of_get? h
  | array items =>
    obtain ⟨i, -, hi⟩ := Option.bind_eq_some_iff.1 h
    exact strings_subset_of_mem (List.mem_of_getElem? hi)
  | null | bool | number | string => simp [child?] at h

theorem strings_subset_of_descend? {v w : Json} {path : List Text}
    (h : v.descend? path = some w) : w.strings ⊆ v.strings := by
  induction path generalizing v with
  | nil => rw [← Option.some.inj h]; exact List.Subset.refl _
  | cons key path ih =>
    obtain ⟨u, hu, hw⟩ := Option.bind_eq_some_iff.1 h
    exact List.Subset.trans (ih hw) (strings_subset_of_child? hu)

/-- What a path names in a scope has only strings of the scope. -/
theorem strings_subset_of_lookup? {v : Json} {path : Text} {fields : Fields}
    (h : fields.lookup? path = some v) : v.strings ⊆ stringsOfFields fields := by
  unfold Fields.lookup? at h
  split at h
  · next w hw => exact Option.some.inj h ▸ strings_subset_of_get? hw
  · split at h
    · obtain ⟨u, hu, hw⟩ := Option.bind_eq_some_iff.1 h
      exact List.Subset.trans (strings_subset_of_descend? hw) (strings_subset_of_get? hu)
    · simp at h

theorem stringsOfFields_insert_subset (key : Text) (v : Json) (fields : Fields) :
    stringsOfFields (fields.insert key v) ⊆ key :: v.strings ++ stringsOfFields fields := by
  induction fields with
  | nil => simp [Fields.insert, stringsOfFields]
  | cons f fields ih =>
    obtain ⟨k, w⟩ := f
    rw [Fields.insert]
    split
    · simp [stringsOfFields]
    · intro s hs
      simp only [stringsOfFields, List.cons_append, List.mem_cons, List.mem_append] at hs ⊢
      tauto
    · intro s hs
      simp only [stringsOfFields, List.cons_append, List.mem_cons, List.mem_append] at hs ⊢
      rcases hs with hs | hs | hs
      · tauto
      · tauto
      · have := ih hs
        simp only [List.cons_append, List.mem_cons, List.mem_append] at this
        tauto

end Json

end Pagewright
