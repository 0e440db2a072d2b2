import Pagewright.Proofs.Json.Strings
import Pagewright.Proofs.Text.Substitution
import Pagewright.Template.Element
import Pagewright.Template.Placeholder

/-!
# Where placeholders end, and what they can put in

A placeholder ends at the first closing brace behind its opening. So reading one does not look at what
follows that brace (`Placeholder.parse?_append`), and its fallback is a part of what was read
(`Placeholder.eq_append_of_parse?`). Values without a character do not bring it into a text
(`Placeholder.count_replace_le`).
-/

namespace Pagewright

variable {t r z rest name opening : Text} {written : Option Text} {isNameChar : Char → Bool}

/-! ## Fallbacks -/

private theorem trim_sublist (t : Text) : (Text.trim t).Sublist t := by
  have h : Text.trimEnd (Text.trimStart t) <+: Text.trimStart t := by
    rw [Text.trimEnd, ← List.reverse_suffix, List.reverse_reverse]
    exact List.dropWhile_suffix _
  exact h.sublist.trans (List.dropWhile_suffix _).sublist

/-- The text of a fallback is a part of what is written. -/
theorem fallbackText_sublist (w : Text) : (fallbackText w).Sublist w := by
  unfold fallbackText
  simp only
  split
  · exact List.nil_sublist w
  · split
    · next c d r heq =>
      split
      · have h : (d :: r).dropLast.Sublist (c :: d :: r) :=
          (List.dropLast_sublist _).trans (List.sublist_cons_self c _)
        exact h.trans (heq ▸ trim_sublist w)
      · exact trim_sublist w
    · exact trim_sublist w

/-! ## Reading -/

private theorem isBlank_brace : Text.isBlank '\x7d' = false := by decide

private theorem ne_brace_of_isBlank {c : Char} (hc : Text.isBlank c) : c ≠ '\x7d' := by
  rintro rfl
  exact absurd hc (by decide)

namespace Placeholder

/-- The end of a placeholder with a fallback. -/
theorem tail?_or {c b x : Char} {blanks w : Text} (hc : Text.isBlank c) (hblanks : ∀ d ∈ blanks, Text.isBlank d)
    (hb : Text.isBlank b) (hw : '\x7d' ∉ x :: w) :
    tail? (c :: (blanks ++ 'o' :: 'r' :: b :: x :: (w ++ '\x7d' :: rest))) = some (some (x :: w), rest) := by
  have hclose : c ≠ '\x7d' := ne_brace_of_isBlank hc
  have hword : '\x7d' ∉ b :: x :: w := by
    rw [List.mem_cons, not_or]
    exact ⟨Ne.symm (ne_brace_of_isBlank hb), hw⟩
  have htrim : Text.trimStart (blanks ++ 'o' :: 'r' :: b :: x :: (w ++ '\x7d' :: rest)) =
      'o' :: 'r' :: (b :: x :: w ++ '\x7d' :: rest) := by
    rw [Text.trimStart, List.dropWhile_append_of_pos hblanks, List.dropWhile_cons_of_neg (by decide)]
    rfl
  rw [tail?, if_neg hclose, if_pos hc, htrim]
  simp only [Text.splitOnce?_append hword]
  exact if_pos hb

/-- A placeholder ends with a brace, or it has a fallback. -/
theorem cases_of_tail? (h : tail? t = some (written, rest)) :
    written = none ∧ t = '\x7d' :: rest ∨
      ∃ c blanks b x w, written = some (x :: w) ∧
        t = c :: (blanks ++ 'o' :: 'r' :: b :: x :: (w ++ '\x7d' :: rest)) ∧
        Text.isBlank c ∧ (∀ d ∈ blanks, Text.isBlank d) ∧ Text.isBlank b ∧ '\x7d' ∉ x :: w := by
  unfold tail? at h
  split at h
  · cases h
  · next c s =>
    split at h
    · next hc =>
      simp only [Option.some.injEq, Prod.mk.injEq] at h
      exact .inl ⟨h.1.symm, by rw [hc, h.2]⟩
    · split at h
      · next hc =>
        split at h
        · next z hz =>
          split at h
          · next b x w rest' hw =>
            split at h
            · next hb =>
              simp only [Option.some.injEq, Prod.mk.injEq] at h
              obtain ⟨rfl, rfl⟩ := h
              have hs : s = s.takeWhile Text.isBlank ++ 'o' :: 'r' :: z := by
                rw [← hz, Text.trimStart, List.takeWhile_append_dropWhile]
              have hword : '\x7d' ∉ x :: w := fun hm =>
                Text.notMem_of_splitOnce? hw (List.mem_cons_of_mem b hm)
              rw [OpenTag.splitOnce?_eq_append hw] at hs
              exact .inr ⟨c, s.takeWhile Text.isBlank, b, x, w, rfl, congrArg _ hs, hc,
                fun d hd => List.mem_takeWhile_imp hd, hb, hword⟩
            · cases h
          · cases h
        · cases h
      · cases h

/-- The end of a placeholder is read up to the first closing brace, and the fallback stands right before
the brace. -/
theorem eq_append_of_tail? (h : tail? t = some (written, rest)) :
    ∃ u, t = u ++ '\x7d' :: rest ∧ '\x7d' ∉ u ∧ written.getD [] <:+ u := by
  rcases cases_of_tail? h with ⟨rfl, rfl⟩ | ⟨c, blanks, b, x, w, rfl, rfl, hc, hblanks, hb, hw⟩
  · exact ⟨[], rfl, by simp, by simp⟩
  · refine ⟨c :: (blanks ++ 'o' :: 'r' :: b :: x :: w), by simp, ?_, c :: blanks ++ ['o', 'r', b], by simp⟩
    have hblank : '\x7d' ∉ blanks := fun hm => ne_brace_of_isBlank (hblanks _ hm) rfl
    rw [List.mem_cons, not_or] at hw
    simp [hblank, hw, Ne.symm (ne_brace_of_isBlank hc), Ne.symm (ne_brace_of_isBlank hb)]

/-- A placeholder is its opening, its name and its end; the fallback is a part of the end. -/
theorem eq_append_of_parse? (h : parse? opening isNameChar t = some (name, written, rest)) :
    ∃ u, t = opening ++ name ++ u ++ '\x7d' :: rest ∧ '\x7d' ∉ u ∧ written.getD [] <:+ u := by
  obtain ⟨r, hr, h⟩ := Option.bind_eq_some_iff.1 h
  simp only at h
  split at h
  · simp at h
  · obtain ⟨⟨w, rest'⟩, ht, h⟩ := Option.bind_eq_some_iff.1 h
    simp only [Option.pure_def, Option.some.injEq, Prod.mk.injEq] at h
    obtain ⟨rfl, rfl, rfl⟩ := h
    obtain ⟨u, hu, hn, hw⟩ := eq_append_of_tail? ht
    refine ⟨u, ?_, hn, hw⟩
    rw [Text.after?_eq_some_iff.1 hr, List.append_assoc, List.append_assoc, ← hu,
      List.takeWhile_append_dropWhile]

theorem suffix_of_parse? (h : parse? opening isNameChar t = some (name, written, rest)) :
    rest <:+ t := by
  obtain ⟨u, rfl, -, -⟩ := eq_append_of_parse? h
  exact ⟨opening ++ name ++ u ++ ['\x7d'], by simp⟩

/-- The end of a placeholder is read up to the closing brace, whatever follows. -/
theorem tail?_append (h : '\x7d' ∈ t) :
    tail? (t ++ z) = (tail? t).map (Prod.map id (· ++ z)) := by
  cases t with
  | nil => simp at h
  | cons c r =>
    by_cases hc : c = '\x7d'
    · simp [tail?, hc]
    · have hr : '\x7d' ∈ r := (List.mem_cons.1 h).resolve_left (Ne.symm hc)
      have htrim : Text.trimStart (r ++ z) = Text.trimStart r ++ z :=
        Text.dropWhile_append_of_mem hr isBlank_brace
      have hmem : '\x7d' ∈ Text.trimStart r := Text.mem_dropWhile_of_mem hr isBlank_brace
      simp only [List.cons_append, tail?, hc, ↓reduceIte, htrim]
      by_cases hb : Text.isBlank c
      · simp only [hb, ↓reduceIte]
        generalize Text.trimStart r = u at hmem
        -- the brace is behind the word, so the word stands before what follows
        rcases u with _ | ⟨d, _ | ⟨e, s⟩⟩
        · simp at hmem
        · have hd : d = '\x7d' := (List.mem_singleton.1 hmem).symm
          subst hd
          rfl
        · by_cases hd : d = 'o'
          · by_cases he : e = 'r'
            · subst hd he
              have hs : '\x7d' ∈ s := by simpa using hmem
              simp only [List.cons_append, Text.splitOnce?_append_of_mem hs]
              rcases Text.splitOnce? '\x7d' s with _ | ⟨_ | ⟨b, _ | ⟨x, w⟩⟩, rest⟩
              · rfl
              · rfl
              · rfl
              · by_cases hbb : Text.isBlank b <;> simp [hbb]
            · simp [he]
          · simp [hd]
      · simp [hb]

/-- A placeholder is read up to the closing brace, whatever follows. -/
theorem parse?_append (hname : isNameChar '\x7d' = false) (hr : '\x7d' ∈ r) :
    parse? opening isNameChar (opening ++ r ++ z) =
      (parse? opening isNameChar (opening ++ r)).map (Prod.map id (Prod.map id (· ++ z))) := by
  have hrest : '\x7d' ∈ r.dropWhile isNameChar := Text.mem_dropWhile_of_mem hr hname
  simp only [parse?, List.append_assoc, Text.after?_append_self, Option.bind_eq_bind,
    Option.bind_some, Text.takeWhile_append_of_mem hr hname, Text.dropWhile_append_of_mem hr hname,
    tail?_append hrest]
  by_cases hn : (r.takeWhile isNameChar).isEmpty
  · simp [hn]
  · simp only [hn, Bool.false_eq_true, ↓reduceIte]
    cases tail? (r.dropWhile isNameChar) <;> rfl

/-- Without a closing brace there is no end of a placeholder. -/
theorem tail?_of_notMem (h : '\x7d' ∉ t) : tail? t = none := by
  rw [Option.eq_none_iff_forall_ne_some]
  rintro ⟨written, rest⟩ htail
  obtain ⟨u, rfl, -, -⟩ := eq_append_of_tail? htail
  exact h (by simp)

/-- The name goes on with this character, so it does not end here. -/
theorem tail?_cons_of_ne {d : Char} (hd : d ≠ '\x7d') (hb : Text.isBlank d = false) : tail? (d :: r) = none := by
  simp [tail?, hd, hb]

theorem parse?_cons_of_ne {d : Char} {s : Text} (hd : d ≠ '\x7b') :
    parse? ('\x7b' :: opening) isNameChar (d :: s) = none := by
  have hafter : Text.after? ('\x7b' :: opening) (d :: s) = none := if_neg (Ne.symm hd)
  rw [parse?, hafter]
  rfl

/-- What ends a placeholder is no part of a path. -/
theorem head_of_tail? (h : tail? t = some (written, rest)) : ∃ d s, t = d :: s ∧ isPathChar d = false := by
  unfold tail? at h
  split at h
  · cases h
  · next d s =>
    refine ⟨d, s, rfl, ?_⟩
    split at h
    · next hd => rw [hd]; decide
    · split at h
      · next hb => simp [isPathChar, hb]
      · cases h

theorem isPathChar_of_isBareChar {c : Char} (h : isBareChar c) : isPathChar c := by
  simp only [isBareChar, Bool.and_eq_true] at h
  exact h.1.1

/-- A name is read up to the end of its placeholder. -/
theorem parse?_name (hne : name ≠ []) (hname : ∀ c ∈ name, isNameChar c) (hchar : ∀ c, isNameChar c → isPathChar c)
    (h : tail? t = some (written, rest)) :
    parse? opening isNameChar (opening ++ (name ++ t)) = some (name, written, rest) := by
  obtain ⟨d, s, rfl, hd⟩ := head_of_tail? h
  have hstop : isNameChar d = false := by
    rw [← Bool.not_eq_true]
    intro hmore
    rw [hchar d hmore] at hd
    cases hd
  have htake := Text.takeWhile_append_cons hname hstop s
  have hdrop := Text.dropWhile_append_cons hname hstop s
  simp only [parse?, Text.after?_append_self, Option.bind_eq_bind, Option.bind_some, htake, hdrop, h,
    List.isEmpty_eq_false_iff.2 hne, Bool.false_eq_true, ↓reduceIte]
  rfl

/-- A path is read up to the end of its placeholder. -/
theorem parse?_path {path : Text} (hne : path ≠ []) (hpath : ∀ c ∈ path, isPathChar c)
    (h : tail? t = some (written, rest)) :
    parse? opening isPathChar (opening ++ (path ++ t)) = some (path, written, rest) :=
  parse?_name hne hpath (fun _ hc => hc) h

/-! ## What is put in -/

/-- What a placeholder is replaced by: the value, else the fallback, else the placeholder as it is written. -/
def filled (value written : Option Text) (source : Text) : Text :=
  match value, written with
  | some v, _ => v
  | none, some w => fallbackText w
  | none, none => source

theorem replace_of_parse? {fill : Text → Option Text} (h : parse? opening isNameChar t = some (name, written, rest)) :
    replace opening isNameChar fill t =
      filled (fill name) written (Text.consumed t rest) ++ replace opening isNameChar fill rest := by
  obtain ⟨u, ht, -, -⟩ := eq_append_of_parse? h
  cases t with
  | nil => simp at ht
  | cons c r =>
    have hlen : rest.length ≤ r.length := by
      have hlength := congrArg List.length ht
      simp only [List.length_cons, List.length_append] at hlength
      omega
    refine Text.substitute_cons_some ?_ hlen
    rw [h]
    cases hv : fill name <;> cases written <;> simp [filled, hv]

/-! ## Closed texts -/

/-- Every brace that opens in the text has a closing one behind it. So no placeholder that begins in the text
reaches over its end. -/
def Closed : Text → Prop
  | [] => True
  | c :: t => (c = '\x7b' → '\x7d' ∈ t) ∧ Closed t

instance decidableClosed : (t : Text) → Decidable (Closed t)
  | [] => .isTrue trivial
  | c :: t =>
    have := decidableClosed t
    inferInstanceAs (Decidable ((c = '\x7b' → '\x7d' ∈ t) ∧ Closed t))

theorem closed_of_notMem (h : '\x7b' ∉ t) : Closed t := by
  induction t with
  | nil => trivial
  | cons c t ih =>
    rw [List.mem_cons, not_or] at h
    exact ⟨fun hc => absurd hc.symm h.1, ih h.2⟩

theorem Closed.append (ht : Closed t) (hr : Closed r) : Closed (t ++ r) := by
  induction t with
  | nil => exact hr
  | cons c t ih => exact ⟨fun hc => List.mem_append_left r (ht.1 hc), ih ht.2⟩

theorem closed_hole {q : Text} (hq : '\x7b' ∉ q) : Closed ('\x7b' :: (q ++ ['\x7d'])) := by
  have hrest : Closed (q ++ ['\x7d']) := (closed_of_notMem hq).append (by decide)
  exact ⟨fun _ => by simp, hrest⟩

theorem Closed.mem_of_suffix {s : Text} (ht : Closed t) (hs : '\x7b' :: s <:+ t) : '\x7d' ∈ s := by
  induction t with
  | nil => simp at hs
  | cons c t ih =>
    rcases List.suffix_cons_iff.1 hs with heq | hsuf
    · obtain ⟨rfl, rfl⟩ := List.cons.inj heq
      exact ht.1 rfl
    · exact ih ht.2 hsuf

/-! ## Texts in parts -/

variable {fill : Text → Option Text} {a b s : Text}

/-- A placeholder that ends before what follows a text is in the text. -/
theorem parse?_append_of_suffix (hname : isNameChar '\x7d' = false)
    (h : ∀ name w tail, parse? opening isNameChar (s ++ b) = some (name, w, tail) → b <:+ tail) :
    parse? opening isNameChar (s ++ b) =
      (parse? opening isNameChar s).map (Prod.map id (Prod.map id (· ++ b))) := by
  have hmem : ∀ {u name k : Text}, s = opening ++ name ++ u ++ '\x7d' :: k →
      parse? opening isNameChar (s ++ b) =
        (parse? opening isNameChar s).map (Prod.map id (Prod.map id (· ++ b))) := fun hs => by
    rw [hs, List.append_assoc opening, List.append_assoc opening]
    exact parse?_append hname (by simp)
  cases hp : parse? opening isNameChar (s ++ b) with
  | some found =>
    obtain ⟨name, w, tail⟩ := found
    obtain ⟨k, rfl⟩ := h _ _ _ hp
    obtain ⟨u, hu, -, -⟩ := eq_append_of_parse? hp
    have hs : s ++ b = (opening ++ name ++ u ++ '\x7d' :: k) ++ b := by simpa using hu
    rw [← hp]
    exact hmem (List.append_cancel_right hs)
  | none =>
    cases hs : parse? opening isNameChar s with
    | none => rfl
    | some found =>
      obtain ⟨u, hu, -, -⟩ := eq_append_of_parse? hs
      have := hmem hu
      simp [hp, hs] at this

theorem parse?_append_of_mem (hname : isNameChar '\x7d' = false) (hopening : '\x7d' ∉ opening) (hs : '\x7d' ∈ s) :
    parse? opening isNameChar (s ++ b) =
      (parse? opening isNameChar s).map (Prod.map id (Prod.map id (· ++ b))) := by
  have hafter := Text.after?_append_of_mem (s := b) hopening hs
  cases hr : Text.after? opening s with
  | none =>
    rw [hr] at hafter
    rw [parse?, parse?, hr, hafter]
    rfl
  | some r =>
    have htext := Text.after?_eq_some_iff.1 hr
    rw [htext, List.mem_append] at hs
    rw [htext]
    exact parse?_append hname (hs.resolve_left hopening)

/-- Two texts are filled in apart when no placeholder reaches from the first one into the second. -/
theorem replace_append (hname : isNameChar '\x7d' = false)
    (h : ∀ s name w tail, s <:+ a → s ≠ [] →
      parse? opening isNameChar (s ++ b) = some (name, w, tail) → b <:+ tail) :
    replace opening isNameChar fill (a ++ b) =
      replace opening isNameChar fill a ++ replace opening isNameChar fill b := by
  refine Text.substitute_append (fun s hs hn => ?_) (fun s out rest _ hstep => ?_)
  · rw [parse?_append_of_suffix hname fun name w tail hp => h s name w tail hs hn hp]
    cases hp : parse? opening isNameChar s with
    | none => rfl
    | some found =>
      obtain ⟨name, w, tail⟩ := found
      simp only [Option.map_some, Prod.map_apply, id_eq]
      split <;> simp [Text.consumed_append_append (suffix_of_parse? hp)]
  · split at hstep
    · next hp =>
      have hsuf := suffix_of_parse? hp
      split at hstep <;> simp only [Option.some.injEq, Prod.mk.injEq] at hstep <;>
        exact hstep.2 ▸ hsuf
    · simp at hstep

/-! ## Counting -/

variable {c : Char}

/-- What is put in for a placeholder and what follows it have no more of a character than the text had:
the values have none, and a fallback is a part of the placeholder. -/
private theorem count_add_count_le {u out : Text} (ht : t = u ++ '\x7d' :: rest)
    (hout : out.count c ≤ u.count c) : out.count c + rest.count c ≤ t.count c := by
  rw [ht, List.count_append, List.count_cons]
  omega

theorem count_replace_le (h : ∀ path v, fill path = some v → c ∉ v) (t : Text) :
    (replace opening isNameChar fill t).count c ≤ t.count c := by
  refine Text.count_substitute_le c (fun s out rest hs => ?_) t
  split at hs
  · next name written rest' hp =>
    obtain ⟨u, hu, -, hw⟩ := eq_append_of_parse? hp
    split at hs
    · next v _ hv =>
      simp only [Option.some.injEq, Prod.mk.injEq] at hs
      obtain ⟨rfl, rfl⟩ := hs
      refine count_add_count_le hu ?_
      simp [List.count_eq_zero.2 (h _ _ hv)]
    · next w _ =>
      simp only [Option.some.injEq, Prod.mk.injEq] at hs
      obtain ⟨rfl, rfl⟩ := hs
      refine count_add_count_le hu ?_
      have hsub : (fallbackText w).Sublist (opening ++ name ++ u) :=
        (fallbackText_sublist w).trans (hw.sublist.trans (List.sublist_append_right _ _))
      exact hsub.count_le c
    · simp only [Option.some.injEq, Prod.mk.injEq] at hs
      obtain ⟨rfl, rfl⟩ := hs
      rw [← List.count_append, Element.consumed_append (suffix_of_parse? hp)]
  · simp at hs

end Placeholder

open Placeholder

variable {c : Char}

/-! ## Names in braces -/

section Named

variable {key value a b : Text}

private theorem replaceNamed_first (name value : Text) (d : Char) (s : Text) (hd : d ≠ '\x7b') :
    (match Text.after? ('\x7b' :: name) (d :: s) with
      | some r => (tail? r).map fun (_, rest) => (value, rest)
      | none => none) = none := by
  have hafter : Text.after? ('\x7b' :: name) (d :: s) = none := if_neg (Ne.symm hd)
  simp only [hafter]

theorem replaceNamed_append_of_notMem (ha : '\x7b' ∉ a) (b : Text) :
    replaceNamed name value (a ++ b) = a ++ replaceNamed name value b :=
  Text.substitute_append_of_notMem (replaceNamed_first name value) ha b

theorem replaceNamed_of_notMem (ha : '\x7b' ∉ a) : replaceNamed name value a = a :=
  Text.substitute_of_notMem (replaceNamed_first name value) ha

/-- A name is put in apart in a closed text and in what follows. -/
theorem replaceNamed_append (hname : '\x7d' ∉ name) (ha : Closed a) (b : Text) :
    replaceNamed name value (a ++ b) = replaceNamed name value a ++ replaceNamed name value b := by
  refine Text.substitute_append (fun s hs hn => ?_) (fun s out rest _ hstep => ?_)
  · obtain ⟨d, s, rfl⟩ := List.exists_cons_of_ne_nil hn
    by_cases hd : d = '\x7b'
    · subst hd
      have hmem : '\x7d' ∈ '\x7b' :: s := List.mem_cons_of_mem _ (ha.mem_of_suffix hs)
      have hopening : '\x7d' ∉ '\x7b' :: name := by
        rw [List.mem_cons, not_or]
        exact ⟨by decide, hname⟩
      rw [Text.after?_append_of_mem hopening hmem]
      cases hr : Text.after? ('\x7b' :: name) ('\x7b' :: s) with
      | none => rfl
      | some r =>
        have hclose : '\x7d' ∈ r := by
          rw [Text.after?_eq_some_iff.1 hr, List.mem_append] at hmem
          exact hmem.resolve_left hopening
        simp only [Option.map_some, tail?_append hclose, Option.map_map]
        rfl
    · have hnone : ∀ z, Text.after? ('\x7b' :: name) (d :: z) = none := fun z => if_neg (Ne.symm hd)
      rw [List.cons_append, hnone, hnone]
      rfl
  · split at hstep
    · next r hr =>
      obtain ⟨⟨w, rest'⟩, htail, heq⟩ := Option.map_eq_some_iff.1 hstep
      obtain ⟨u, hu, -, -⟩ := eq_append_of_tail? htail
      obtain ⟨-, rfl⟩ := Prod.mk.inj heq
      rw [Text.after?_eq_some_iff.1 hr, hu]
      exact ⟨'\x7b' :: name ++ u ++ ['\x7d'], by simp⟩
    · cases hstep

/-- The value takes the place of a placeholder at the start of a text. -/
theorem replaceNamed_of_tail? (h : Text.after? ('\x7b' :: name) t = some r) (htail : tail? r = some (written, rest)) :
    replaceNamed name value t = value ++ replaceNamed name value rest := by
  have ht := Text.after?_eq_some_iff.1 h
  obtain ⟨u, hr, -, -⟩ := eq_append_of_tail? htail
  rw [List.cons_append] at ht
  subst ht
  refine Text.substitute_cons_some ?_ ?_
  · rw [h]
    simp only [htail]
    rfl
  · rw [hr]
    simp only [List.length_append, List.length_cons]
    omega

/-- The value takes the place of the only placeholder. -/
theorem replaceNamed_hole (ha : '\x7b' ∉ a) (hb : '\x7b' ∉ b) :
    replaceNamed name value (a ++ ('\x7b' :: name ++ '\x7d' :: b)) = a ++ (value ++ b) := by
  have hafter : Text.after? ('\x7b' :: name) ('\x7b' :: name ++ '\x7d' :: b) = some ('\x7d' :: b) :=
    Text.after?_append_self _ _
  have htail : tail? ('\x7d' :: b) = some (none, b) := rfl
  rw [replaceNamed_append_of_notMem ha, replaceNamed_of_tail? hafter htail, replaceNamed_of_notMem hb]

/-- The value of another name is not put into the only placeholder. -/
theorem replaceNamed_hole_of_ne (hne : name ≠ key) (hkey : ∀ d ∈ key, d ≠ '\x7d' ∧ d ≠ '\x7b' ∧ Text.isBlank d = false)
    (ha : '\x7b' ∉ a) (hb : '\x7b' ∉ b) (hb' : '\x7d' ∉ b) :
    replaceNamed name value (a ++ ('\x7b' :: key ++ '\x7d' :: b)) = a ++ ('\x7b' :: key ++ '\x7d' :: b) := by
  have hrest : '\x7b' ∉ key ++ '\x7d' :: b := by
    rw [List.mem_append, List.mem_cons, not_or, not_or]
    exact ⟨fun hm => (hkey _ hm).2.1 rfl, by decide, hb⟩
  have hnone : ∀ r, Text.after? ('\x7b' :: name) ('\x7b' :: key ++ '\x7d' :: b) = some r → tail? r = none := by
    intro r hr
    have htext : name ++ r = key ++ '\x7d' :: b := by
      have := Text.after?_eq_some_iff.1 hr
      simpa [eq_comm] using this
    rcases List.append_eq_append_iff.1 htext with ⟨w, hw, hrw⟩ | ⟨w, hw, hrw⟩
    · -- the name ends in the key
      cases w with
      | nil =>
        rw [List.append_nil] at hw
        exact absurd hw.symm hne
      | cons d w =>
        obtain ⟨hclose, -, hblank⟩ := hkey d (by simp [hw])
        rw [hrw]
        exact tail?_cons_of_ne hclose hblank
    · -- the name reaches over the brace, and there is no other one
      cases w with
      | nil =>
        rw [List.append_nil] at hw
        exact absurd hw hne
      | cons d w =>
        have hsuffix : b = w ++ r := (List.cons.inj hrw).2
        exact tail?_of_notMem fun hm => hb' (hsuffix ▸ List.mem_append_right w hm)
  have hfree : replaceNamed name value ('\x7b' :: (key ++ '\x7d' :: b)) = '\x7b' :: (key ++ '\x7d' :: b) := by
    refine (Text.substitute_cons_none ?_).trans (congrArg _ (replaceNamed_of_notMem hrest))
    split
    · next r hr =>
      rw [hnone r hr]
      rfl
    · rfl
  rw [List.cons_append]
  rw [replaceNamed_append_of_notMem ha, hfree]

end Named

/-! ## Paths -/

section Scoped

variable {a : Text} {scope : Fields}

private theorem replaceScoped_first (scopeName : Text) (scope : Fields) (d : Char) (s : Text) (hd : d ≠ '\x7b') :
    (match parse? (scopeOpening scopeName) isPathChar (d :: s) with
      | some (name, written, rest) =>
        match (scope.lookup? name).map Json.display, written with
        | some v, _ => some (v, rest)
        | none, some w => some (fallbackText w, rest)
        | none, none => some (Text.consumed (d :: s) rest, rest)
      | none => none) = none := by
  have hparse : parse? (scopeOpening scopeName) isPathChar (d :: s) = none := parse?_cons_of_ne hd
  simp only [hparse]

theorem replaceScoped_append_of_notMem (ha : '\x7b' ∉ a) (scopeName : Text) (scope : Fields) (b : Text) :
    replaceScoped scopeName scope (a ++ b) = a ++ replaceScoped scopeName scope b :=
  Text.substitute_append_of_notMem (replaceScoped_first scopeName scope) ha b

theorem replaceScoped_of_notMem (ha : '\x7b' ∉ a) (scopeName : Text) (scope : Fields) :
    replaceScoped scopeName scope a = a :=
  Text.substitute_of_notMem (replaceScoped_first scopeName scope) ha

/-- A scope is put in apart in a closed text and in what follows. -/
theorem replaceScoped_append {scopeName : Text} (hname : '\x7d' ∉ scopeName) (ha : Closed a) (scope : Fields)
    (b : Text) :
    replaceScoped scopeName scope (a ++ b) = replaceScoped scopeName scope a ++ replaceScoped scopeName scope b := by
  have hopening : '\x7d' ∉ scopeOpening scopeName := by
    simp [scopeOpening, hname]
  refine replace_append (by decide) fun s name w tail hs hn hparse => ?_
  obtain ⟨d, s, rfl⟩ := List.exists_cons_of_ne_nil hn
  by_cases hd : d = '\x7b'
  · subst hd
    have hmem : '\x7d' ∈ '\x7b' :: s := List.mem_cons_of_mem _ (ha.mem_of_suffix hs)
    rw [parse?_append_of_mem (by decide) hopening hmem] at hparse
    obtain ⟨⟨name', w', tail'⟩, -, heq⟩ := Option.map_eq_some_iff.1 hparse
    simp only [Prod.map_apply, id_eq, Prod.mk.injEq] at heq
    exact ⟨tail', heq.2.2⟩
  · have hnone : parse? (scopeOpening scopeName) isPathChar (d :: s ++ b) = none := parse?_cons_of_ne hd
    rw [hnone] at hparse
    cases hparse

end Scoped

/-! ## Bare names -/

section Bare

variable {a b : Text}

private theorem sweepBare_first (d : Char) (s : Text) (hd : d ≠ '\x7b') :
    (match parse? ['\x7b'] isBareChar (d :: s) with
      | some (name, written, rest) =>
        match written with
        | some w =>
          some (if name ∈ reservedNames then Text.consumed (d :: s) rest else fallbackText w, rest)
        | none => some (Text.consumed (d :: s) rest, rest)
      | none => none) = none := by
  simp only [parse?_cons_of_ne hd]

theorem sweepBare_append_of_notMem (ha : '\x7b' ∉ a) (b : Text) : sweepBare (a ++ b) = a ++ sweepBare b :=
  Text.substitute_append_of_notMem sweepBare_first ha b

theorem sweepBare_of_notMem (ha : '\x7b' ∉ a) : sweepBare a = a :=
  Text.substitute_of_notMem sweepBare_first ha

/-- What follows without braces is no part of a placeholder. -/
theorem sweepBare_append (hb : '\x7b' ∉ b) (hb' : '\x7d' ∉ b) : sweepBare (a ++ b) = sweepBare a ++ b := by
  have hstep : sweepBare (a ++ b) = sweepBare a ++ sweepBare b := by
    refine Text.substitute_append (fun s _ _ => ?_) (fun s out rest _ hs => ?_)
    · have hparse : parse? ['\x7b'] isBareChar (s ++ b) =
          (parse? ['\x7b'] isBareChar s).map (Prod.map id (Prod.map id (· ++ b))) := by
        refine parse?_append_of_suffix (by decide) fun name w tail hp => ?_
        -- the closing brace stands in front of what follows
        obtain ⟨u, hu, -, -⟩ := eq_append_of_parse? hp
        rcases List.append_eq_append_iff.1 hu with ⟨v, hv, hw⟩ | ⟨v, hv, hw⟩
        · exact absurd (by rw [hw]; simp) hb'
        · cases v with
          | nil =>
            rw [List.nil_append] at hw
            exact absurd (hw ▸ List.mem_cons_self) hb'
          | cons d v =>
            rw [List.cons_append, List.cons.injEq] at hw
            exact ⟨v, hw.2.symm⟩
      rw [hparse]
      cases hp : parse? ['\x7b'] isBareChar s with
      | none => rfl
      | some found =>
        obtain ⟨name, w, tail⟩ := found
        simp only [Option.map_some, Prod.map_apply, id_eq, Text.consumed_append_append (suffix_of_parse? hp) b]
        split <;> rfl
    · split at hs
      · next hp =>
        have hsuf := suffix_of_parse? hp
        split at hs <;> simp only [Option.some.injEq, Prod.mk.injEq] at hs <;> exact hs.2 ▸ hsuf
      · simp at hs
  rw [hstep, sweepBare_of_notMem hb]

end Bare

theorem count_replaceNamed_le {value : Text} (h : c ∉ value) (t : Text) :
    (replaceNamed name value t).count c ≤ t.count c := by
  refine Text.count_substitute_le c (fun s out rest hs => ?_) t
  split at hs
  · next r hr =>
    obtain ⟨⟨w, rest'⟩, ht, he⟩ := Option.map_eq_some_iff.1 hs
    simp only [Prod.mk.injEq] at he
    obtain ⟨rfl, rfl⟩ := he
    obtain ⟨u, hu, -, -⟩ := eq_append_of_tail? ht
    rw [Text.after?_eq_some_iff.1 hr, hu, List.count_eq_zero.2 h]
    simp only [List.count_append, List.count_cons]
    omega
  · simp at hs

/-- A scope whose strings lack a character does not bring it into a text. -/
theorem count_replaceScoped_le (hc : Json.Verbatim [c]) (hbar : c ≠ '|') {scope : Fields}
    (h : ∀ s ∈ Json.stringsOfFields scope, c ∉ s) (t : Text) :
    (replaceScoped name scope t).count c ≤ t.count c := by
  refine count_replace_le (fun path v hv hmem => ?_) t
  obtain ⟨w, hw, rfl⟩ := Option.map_eq_some_iff.1 hv
  obtain ⟨s, hs, hcs⟩ := Json.mem_strings_of_mem_display hc hbar w hmem
  exact h s (Json.strings_subset_of_lookup? hw hs) hcs

end Pagewright
