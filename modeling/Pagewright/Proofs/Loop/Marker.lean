import Pagewright.Proofs.Binary64.Decimal
import Pagewright.Proofs.Text.Occurrence
import Pagewright.Template.Loop

/-!
# Markers for loops

While a body is rendered, markers stand for the loops inside it, and afterwards the loops are put back one
after the other, each in place of the first occurrence of its marker. A condition can have dropped some of the
markers by then. A marker begins and ends with the same character, so two of them with the right text between
them have another one in their middle, and when that is one that was dropped, its loop is put in there.

The body is seen as a list of parts here, texts and loops. The loops are put back as they should be if no
dropped marker occurs behind its place (`putBack_masked`). If one does, a loop is put in place of the ends of
two others, and the rest of their markers stays in the text whatever is put in later
(`putBack_masked_of_collides`).
-/

namespace Pagewright.Loop

variable {n k : Nat} {u v r s t out : Text} {ps qs : List BodyPart}

/-! ## Parts -/

/-- A part of a body: text that is shown, or a loop, which a condition may have dropped. -/
inductive BodyPart
  | words (t : Text)
  | loop (kept : Bool) (t : Text)

namespace BodyPart

/-- The text of the parts with markers for the loops that are kept, where so many loops are before them. -/
def masked : Nat → List BodyPart → Text
  | _, [] => []
  | n, words t :: ps => t ++ masked n ps
  | n, loop kept _ :: ps => (if kept then marker n else []) ++ masked (n + 1) ps

/-- The text of the parts with the loops that are kept. -/
def shown : List BodyPart → Text
  | [] => []
  | words t :: ps => t ++ shown ps
  | loop kept t :: ps => (if kept then t else []) ++ shown ps

/-- The loops of the parts, dropped ones too. -/
def loops : List BodyPart → List Text
  | [] => []
  | words _ :: ps => loops ps
  | loop _ t :: ps => t :: loops ps

/-- The parts of a block that is not shown. -/
def dropped : List BodyPart → List BodyPart
  | [] => []
  | words _ :: ps => dropped ps
  | loop _ t :: ps => loop false t :: dropped ps

/-- The marker of a loop that was dropped occurs in the text behind the place of the loop. -/
def Collides : Nat → List BodyPart → Prop
  | _, [] => False
  | n, words _ :: ps => Collides n ps
  | n, loop kept _ :: ps => (kept = false ∧ marker n <:+: masked (n + 1) ps) ∨ Collides (n + 1) ps

@[simp] theorem masked_append (n : Nat) (ps qs : List BodyPart) :
    masked n (ps ++ qs) = masked n ps ++ masked (n + (loops ps).length) qs := by
  induction ps generalizing n with
  | nil => rfl
  | cons p ps ih =>
    cases p with
    | words t => simp [masked, loops, ih]
    | loop kept t =>
      have hcount : n + 1 + (loops ps).length = n + ((loops ps).length + 1) := by omega
      simp [masked, loops, ih, hcount]

@[simp] theorem shown_append (ps qs : List BodyPart) : shown (ps ++ qs) = shown ps ++ shown qs := by
  induction ps with
  | nil => rfl
  | cons p ps ih => cases p <;> simp [shown, ih]

@[simp] theorem loops_append (ps qs : List BodyPart) : loops (ps ++ qs) = loops ps ++ loops qs := by
  induction ps with
  | nil => rfl
  | cons p ps ih => cases p <;> simp [loops, ih]

@[simp] theorem masked_dropped (n : Nat) (ps : List BodyPart) : masked n (dropped ps) = [] := by
  induction ps generalizing n with
  | nil => rfl
  | cons p ps ih => cases p <;> simp [masked, dropped, ih]

@[simp] theorem shown_dropped (ps : List BodyPart) : shown (dropped ps) = [] := by
  induction ps with
  | nil => rfl
  | cons p ps ih => cases p <;> simp [shown, dropped, ih]

@[simp] theorem loops_dropped (ps : List BodyPart) : loops (dropped ps) = loops ps := by
  induction ps with
  | nil => rfl
  | cons p ps ih => cases p <;> simp [loops, dropped, ih]

end BodyPart

/-! ## Markers -/

/-- What a marker has between its ends. -/
def label (n : Nat) : Text := tag ++ ':' :: Text.ofNat n

theorem marker_eq (n : Nat) : marker n = '\x00' :: (label n ++ ['\x00']) := by
  simp [marker, label]

theorem notMem_label {c : Char} (h : c ∉ tag) (hc : c ≠ ':') (hd : Text.isDigit c = false) (n : Nat) :
    c ∉ label n := by
  intro hm
  rcases List.mem_append.1 hm with hm | hm
  · exact h hm
  · rcases List.mem_cons.1 hm with rfl | hm
    · exact hc rfl
    · rw [Binary64.isDigit_of_mem_ofNat hm] at hd
      cases hd

theorem null_notMem_label (n : Nat) : '\x00' ∉ label n := notMem_label (by decide) (by decide) (by decide) n

theorem lt_notMem_label (n : Nat) : '<' ∉ label n := notMem_label (by decide) (by decide) (by decide) n

theorem label_inj (h : label n = label k) : n = k := by
  have hdigits : Text.ofNat n = Text.ofNat k := by simpa [label] using h
  rw [← Binary64.digitsValue_ofNat n, hdigits, Binary64.digitsValue_ofNat]

/-! ## Calm texts -/

/-- No marker begins in the text, whatever follows it, and the text does not end the beginning of one: a
character that could do so stands behind a `<`. -/
structure Calm (u : Text) : Prop where
  unmarked : ∀ v, '\x00' :: v <:+ u → ∀ z, ¬ tag <+: v ++ z
  behind : '\x00' ∈ u → ∃ v w, u = v ++ '<' :: w ∧ '\x00' ∉ v

theorem calm_of_notMem (h : '\x00' ∉ u) : Calm u where
  unmarked := fun _ hv => absurd (hv.subset List.mem_cons_self) h
  behind := fun hu => absurd hu h

theorem Calm.append (hu : Calm u) (hv : Calm v) : Calm (u ++ v) where
  unmarked := by
    have hunmarked := hu.unmarked
    clear hu
    induction u with
    | nil => exact hv.unmarked
    | cons d u ih =>
      intro w hw z
      rcases List.suffix_cons_iff.1 hw with heq | hsuf
      · obtain ⟨rfl, rfl⟩ := List.cons.inj heq
        have h := hunmarked u List.suffix_rfl (v ++ z)
        rwa [← List.append_assoc] at h
      · exact ih (fun w hw => hunmarked w (hw.trans (List.suffix_cons d u))) w hsuf z
  behind := by
    intro h
    by_cases hm : '\x00' ∈ u
    · obtain ⟨a, w, rfl, ha⟩ := hu.behind hm
      exact ⟨a, w ++ v, by simp, ha⟩
    · obtain ⟨a, w, rfl, ha⟩ := hv.behind ((List.mem_append.1 h).resolve_left hm)
      exact ⟨u ++ a, w, by simp, by simp [hm, ha]⟩

/-- The search for a marker passes over a text in which no tag follows a zero. -/
theorem splitFirst?_append (hu : ∀ v, '\x00' :: v <:+ u → ∀ z, ¬ tag <+: v ++ z) (n : Nat) (r : Text) :
    Text.splitFirst? (marker n) (u ++ r) =
      (Text.splitFirst? (marker n) r).map fun (before, rest) => (u ++ before, rest) := by
  induction u with
  | nil => simp
  | cons d u ih =>
    have hhead : Text.after? (marker n) (d :: (u ++ r)) = none := by
      rw [Text.after?_eq_none_iff, marker_eq, List.cons_prefix_cons]
      rintro ⟨rfl, hpre⟩
      have htag : tag <+: label n ++ ['\x00'] := by simp [label]
      exact hu u List.suffix_rfl r (htag.trans hpre)
    rw [List.cons_append, Text.splitFirst?, hhead]
    simp only
    rw [ih fun v hv => hu v (hv.trans (List.suffix_cons d u)), Option.map_map]
    rfl

theorem Calm.replaceFirst_append (h : Calm u) (n : Nat) (out r : Text) :
    Text.replaceFirst (marker n) out (u ++ r) = u ++ Text.replaceFirst (marker n) out r := by
  unfold Text.replaceFirst
  rw [splitFirst?_append h.unmarked]
  cases Text.splitFirst? (marker n) r with
  | none => rfl
  | some found => simp

theorem replaceFirst_marker (n : Nat) (out r : Text) :
    Text.replaceFirst (marker n) out (marker n ++ r) = out ++ r := by
  have hcons : marker n ++ r = '\x00' :: (label n ++ ['\x00'] ++ r) := by
    rw [marker_eq]
    rfl
  have hafter : Text.after? (marker n) (marker n ++ r) = some r := Text.after?_append_self _ _
  rw [Text.replaceFirst, hcons, Text.splitFirst?, ← hcons, hafter]
  rfl

/-! ## Putting the loops back -/

/-- Puts texts in place of the markers from the given number on, each once. -/
def putBack (n : Nat) (t : Text) : List Text → Text
  | [] => t
  | b :: bs => putBack (n + 1) (Text.replaceFirst (marker n) b t) bs

/-- The texts of the elements among the pieces of a text. -/
def elementTexts : List Piece → List Text
  | [] => []
  | .text _ :: ps => elementTexts ps
  | .element e :: ps => e.text :: elementTexts ps

theorem unmask_eq_putBack (n : Nat) (t : Text) (ps : List Piece) :
    unmask n t ps = putBack n t (elementTexts ps) := by
  induction ps generalizing n t with
  | nil => rfl
  | cons p ps ih =>
    cases p with
    | text u => exact ih n t
    | element e => exact ih (n + 1) (Text.replaceFirst (marker n) e.text t)

/-! ### Between the ends of markers -/

/-- Texts with the end of a marker between each two of them. -/
def joined : List Text → Text
  | [] => []
  | [s] => s
  | s :: t :: rest => s ++ '\x00' :: joined (t :: rest)

/-- Puts a text in place of the first marker of the given number among the ends of markers. -/
def consume (n : Nat) (out : Text) : List Text → List Text
  | s :: t :: r :: rest => if t = label n then (s ++ out ++ r) :: rest else s :: consume n out (t :: r :: rest)
  | [s, t] => [s, t]
  | [s] => [s]
  | [] => []

/-- Only the label itself can stand in a calm text at the place of a label and the end of its marker. -/
private theorem Calm.prefix_label (h : Calm t) (hpre : label n ++ ['\x00'] <+: t ++ r) : t <+: label n := by
  have hmem : '\x00' ∈ label n ++ ['\x00'] := by simp
  by_cases ht : '\x00' ∈ t
  · obtain ⟨v, w, rfl, hv⟩ := h.behind ht
    have hpre' : v ++ ['<'] <+: v ++ '<' :: w ++ r := ⟨w ++ r, by simp⟩
    rcases List.prefix_or_prefix_of_prefix hpre hpre' with hp | hp
    · have := hp.subset hmem
      simp [hv] at this
    · have : '<' ∈ label n ++ ['\x00'] := hp.subset (by simp)
      simp [lt_notMem_label n] at this
  · rcases List.prefix_or_prefix_of_prefix hpre (List.prefix_append t r) with hp | hp
    · exact absurd (hp.subset hmem) ht
    · rcases List.prefix_concat_iff.1 hp with heq | hp
      · exact absurd (heq ▸ hmem) ht
      · exact hp

private theorem not_starts_end (h : Calm t) : ¬ marker n <+: '\x00' :: t := by
  rw [marker_eq, List.cons_prefix_cons]
  rintro ⟨-, hpre⟩
  have ht : t <+: label n := h.prefix_label (r := []) (by simpa using hpre)
  have hlen := (hpre.trans ht).length_le
  simp at hlen

private theorem eq_label_of_starts (h : Calm t) (hpre : marker n <+: '\x00' :: (t ++ '\x00' :: r)) :
    t = label n := by
  rw [marker_eq, List.cons_prefix_cons] at hpre
  obtain ⟨v, hv⟩ := h.prefix_label hpre.2
  obtain ⟨z, hz⟩ := hpre.2
  cases v with
  | nil => simpa using hv
  | cons d v =>
    rw [← hv, List.append_assoc, List.append_assoc, List.append_cancel_left_eq, List.cons_append,
      List.cons.injEq] at hz
    exact absurd (hv ▸ by simp [hz.1]) (null_notMem_label n)

private theorem replaceFirst_cons {c : Char} (h : ¬ marker n <+: c :: r) :
    Text.replaceFirst (marker n) out (c :: r) = c :: Text.replaceFirst (marker n) out r := by
  unfold Text.replaceFirst
  rw [Text.splitFirst?, Text.after?_eq_none_iff.2 h]
  cases Text.splitFirst? (marker n) r <;> rfl

/-- Between the ends of markers, a marker is where its label stands between two of them. -/
theorem replaceFirst_joined (n : Nat) (out : Text) {segs : List Text} (h : ∀ s ∈ segs, Calm s) :
    Text.replaceFirst (marker n) out (joined segs) = joined (consume n out segs) := by
  have hnil : Text.replaceFirst (marker n) out [] = [] := rfl
  have hcalm : ∀ {s : Text}, Calm s → Text.replaceFirst (marker n) out s = s := fun {s} hs => by
    have := hs.replaceFirst_append n out []
    rwa [hnil, List.append_nil] at this
  fun_induction consume n out segs with
  | case1 s r rest =>
    have htext : joined (s :: label n :: r :: rest) = s ++ (marker n ++ joined (r :: rest)) := by
      simp [joined, marker_eq]
    have hout : joined ((s ++ out ++ r) :: rest) = s ++ (out ++ joined (r :: rest)) := by
      cases rest <;> simp [joined]
    rw [htext, (h s List.mem_cons_self).replaceFirst_append, replaceFirst_marker, hout]
  | case2 s t r rest hne ih =>
    have ht : Calm t := h t (by simp)
    have hhead : ¬ marker n <+: '\x00' :: joined (t :: r :: rest) := fun hpre =>
      hne (eq_label_of_starts ht hpre)
    have htail := ih fun u hu => h u (List.mem_cons_of_mem s hu)
    have hcons : ∃ a l, consume n out (t :: r :: rest) = a :: l := by
      cases rest with
      | nil => exact ⟨_, _, rfl⟩
      | cons w rest =>
        rw [consume]
        split <;> exact ⟨_, _, rfl⟩
    obtain ⟨a, l, hal⟩ := hcons
    have hjoin : joined (s :: t :: r :: rest) = s ++ '\x00' :: joined (t :: r :: rest) := rfl
    rw [hjoin, (h s List.mem_cons_self).replaceFirst_append, replaceFirst_cons hhead, htail, hal]
    rfl
  | case3 s t =>
    have ht : Calm t := h t (by simp)
    rw [joined, joined, (h s List.mem_cons_self).replaceFirst_append, replaceFirst_cons (not_starts_end ht), hcalm ht]
  | case4 s => exact hcalm (h s List.mem_cons_self)
  | case5 => rfl

/-- What has a tag is not a marker, so it can be seen that it took the place of one. -/
theorem replaceFirst_marker_ne (h : marker n <:+: t) (hout : '<' ∈ out) :
    Text.replaceFirst (marker n) out t ≠ t := by
  obtain ⟨⟨before, rest⟩, hsplit⟩ := Option.ne_none_iff_exists'.1 fun hnone =>
    Text.splitFirst?_eq_none_iff.1 hnone h
  have htext := Text.eq_append_of_splitFirst? hsplit
  intro hsame
  rw [Text.replaceFirst, hsplit] at hsame
  have heq : out = marker n := by simpa [htext] using hsame
  rw [heq, marker_eq] at hout
  simp [lt_notMem_label n] at hout

/-- A loop stands in a place where a label was, between the ends of a marker. -/
def Blocked : Bool → List Text → Prop
  | _, [] => False
  | odd, s :: rest => (odd = true ∧ '<' ∈ s) ∨ Blocked (!odd) rest

/-- In the places of labels are those of markers from the given number on. -/
def Labelled (n : Nat) : Bool → List Text → Prop
  | _, [] => True
  | odd, s :: rest => (odd = true → ∃ k, n ≤ k ∧ s = label k) ∧ Labelled n (!odd) rest

theorem Blocked.consume {odd : Bool} {segs : List Text} (hout : '<' ∈ out) (h : Blocked odd segs) (n : Nat) :
    Blocked odd (consume n out segs) := by
  fun_induction Loop.consume n out segs generalizing odd with
  | case1 s r rest =>
    have hlabel := lt_notMem_label n
    simp only [Blocked, hlabel, and_false, false_or, Bool.not_not] at h
    rcases h with ⟨ho, -⟩ | ⟨ho, -⟩ | h
    · exact .inl ⟨ho, by simp [hout]⟩
    · exact .inl ⟨ho, by simp [hout]⟩
    · exact .inr h
  | case2 s t r rest _ ih =>
    rcases h with h | h
    · exact .inl h
    · exact .inr (ih h)
  | case3 | case4 | case5 => exact h

/-- Where all markers are whole, only one of them can be replaced by something without leaving a loop between
the ends of another. -/
theorem Labelled.consume {odd : Bool} {segs : List Text} (hout : '<' ∈ out) (h : Labelled (n + 1) odd segs) :
    consume n out segs = segs ∨ Blocked odd (consume n out segs) := by
  fun_induction Loop.consume n out segs generalizing odd with
  | case1 s r rest =>
    -- the label is in no place of a label, where there would be a greater number
    cases odd with
    | true => exact .inr (.inl ⟨rfl, by simp [hout]⟩)
    | false =>
      obtain ⟨k, hk, heq⟩ := h.2.1 rfl
      have := label_inj heq
      omega
  | case2 s t r rest _ ih =>
    rcases ih h.2 with heq | hb
    · exact .inl (by rw [heq])
    · exact .inr (.inr hb)
  | case3 | case4 | case5 => exact .inl rfl

theorem Labelled.mono {odd : Bool} {segs : List Text} (h : Labelled n odd segs) (hk : k ≤ n) :
    Labelled k odd segs := by
  induction segs generalizing odd with
  | nil => trivial
  | cons s segs ih =>
    refine ⟨fun ho => ?_, ih h.2⟩
    obtain ⟨m, hm, hs⟩ := h.1 ho
    exact ⟨m, by omega, hs⟩

/-- What is between the ends of markers in a text and the parts behind it. -/
def segments : Text → Nat → List BodyPart → List Text
  | u, _, [] => [u]
  | u, n, .words t :: ps => segments (u ++ t) n ps
  | u, n, .loop true _ :: ps => u :: label n :: segments [] (n + 1) ps
  | u, n, .loop false _ :: ps => segments u (n + 1) ps

private theorem exists_segments_eq (u : Text) (n : Nat) (ps : List BodyPart) :
    ∃ s l, segments u n ps = s :: l := by
  fun_induction segments u n ps with
  | case1 => exact ⟨_, _, rfl⟩
  | case2 _ _ _ _ ih => exact ih
  | case3 => exact ⟨_, _, rfl⟩
  | case4 _ _ _ _ ih => exact ih

theorem joined_segments (u : Text) (n : Nat) (ps : List BodyPart) :
    joined (segments u n ps) = u ++ BodyPart.masked n ps := by
  fun_induction segments u n ps with
  | case1 => simp [joined, BodyPart.masked]
  | case2 u n t ps ih => simp [ih, BodyPart.masked]
  | case3 u n t ps ih =>
    obtain ⟨s, l, hsl⟩ := exists_segments_eq [] (n + 1) ps
    rw [hsl] at ih ⊢
    simp [joined, ih, BodyPart.masked, marker_eq]
  | case4 u n t ps ih => simp [ih, BodyPart.masked]

theorem labelled_segments (u : Text) (n : Nat) (ps : List BodyPart) : Labelled n false (segments u n ps) := by
  fun_induction segments u n ps with
  | case1 => exact ⟨by simp, trivial⟩
  | case2 u n t ps ih => exact ih
  | case3 u n t ps ih => exact ⟨by simp, fun _ => ⟨n, le_rfl, rfl⟩, ih.mono (Nat.le_succ n)⟩
  | case4 u n t ps ih => exact ih.mono (Nat.le_succ n)

/-! ### The result -/

/-- All texts of the parts are as the property says, and the loops have a tag. -/
def BodyPart.All (P : Text → Prop) : List BodyPart → Prop
  | [] => True
  | .words t :: ps => P t ∧ All P ps
  | .loop _ t :: ps => (P t ∧ '<' ∈ t) ∧ All P ps

/-- A property of texts without markers, which texts put together from such have, and labels too. -/
structure Calming (P : Text → Prop) : Prop where
  calm : ∀ t, P t → Calm t
  nil : P []
  append : ∀ a b, P a → P b → P (a ++ b)
  label : ∀ n, P (label n)

section PutBack

variable {P : Text → Prop} (hP : Calming P)

include hP

/-- All loops come back in their places if no marker of a dropped one occurs behind its place. -/
theorem putBack_masked (hps : BodyPart.All P ps) (hu : P u) (hclean : ¬ BodyPart.Collides n ps) :
    putBack n (u ++ BodyPart.masked n ps) (BodyPart.loops ps) = u ++ BodyPart.shown ps := by
  induction ps generalizing n u with
  | nil => rfl
  | cons p ps ih =>
    cases p with
    | words t =>
      have h := ih hps.2 (hP.append u t hu hps.1) hclean
      simpa only [BodyPart.masked, BodyPart.loops, BodyPart.shown, List.append_assoc] using h
    | loop kept t =>
      simp only [BodyPart.Collides, not_or, not_and] at hclean
      cases kept with
      | true =>
        have h := ih hps.2 (hP.append u t hu hps.1.1) hclean.2
        simp only [BodyPart.masked, BodyPart.loops, BodyPart.shown, putBack, ↓reduceIte,
          (hP.calm u hu).replaceFirst_append, replaceFirst_marker]
        rw [List.append_assoc, List.append_assoc] at h
        exact h
      | false =>
        have hnone : Text.replaceFirst (marker n) t (BodyPart.masked (n + 1) ps) = BodyPart.masked (n + 1) ps :=
          Text.replaceFirst_of_not_infix (hclean.1 rfl)
        simp only [BodyPart.masked, BodyPart.loops, BodyPart.shown, putBack, Bool.false_eq_true, ↓reduceIte,
          List.nil_append, (hP.calm u hu).replaceFirst_append, hnone]
        exact ih hps.2 hu hclean.2

private theorem forall_mem_consume {segs : List Text} (h : ∀ s ∈ segs, P s) (hout : P out) :
    ∀ s ∈ consume n out segs, P s := by
  fun_induction consume n out segs with
  | case1 s r rest =>
    intro t ht
    rcases List.mem_cons.1 ht with rfl | ht
    · exact hP.append _ _ (hP.append _ _ (h s (by simp)) hout) (h r (by simp))
    · exact h t (by simp [ht])
  | case2 s t r rest _ ih =>
    intro u hu
    rcases List.mem_cons.1 hu with rfl | hu
    · exact h u (by simp)
    · exact ih (fun w hw => h w (List.mem_cons_of_mem s hw)) u hu
  | case3 | case4 | case5 => exact h

private theorem forall_mem_segments (hps : BodyPart.All P ps) (hu : P u) : ∀ s ∈ segments u n ps, P s := by
  fun_induction segments u n ps with
  | case1 => simpa using hu
  | case2 u n t ps ih => exact ih hps.2 (hP.append u t hu hps.1)
  | case3 u n t ps ih =>
    intro s hs
    rcases List.mem_cons.1 hs with rfl | hs
    · exact hu
    · rcases List.mem_cons.1 hs with rfl | hs
      · exact hP.label n
      · exact ih hps.2 hP.nil s hs
  | case4 u n t ps ih => exact ih hps.2 hu

/-- Once a loop stands between the ends of a marker, one does in the end. -/
private theorem putBack_blocked {segs bs : List Text} (hsegs : ∀ s ∈ segs, P s)
    (hbs : ∀ b ∈ bs, P b ∧ '<' ∈ b) (h : Blocked false segs) :
    ∃ s r, putBack n (joined segs) bs = s ++ '\x00' :: r ∧ P s := by
  induction bs generalizing n segs with
  | nil =>
    match segs, h with
    | [], h => exact absurd h (by simp [Blocked])
    | [_], h => exact absurd h (by simp [Blocked])
    | s :: t :: rest, _ => exact ⟨s, _, rfl, hsegs s List.mem_cons_self⟩
  | cons b bs ih =>
    obtain ⟨hb, htag⟩ := hbs b List.mem_cons_self
    rw [putBack, replaceFirst_joined n b fun s hs => hP.calm s (hsegs s hs)]
    exact ih (forall_mem_consume hP hsegs hb) (fun b hb => hbs b (List.mem_cons_of_mem _ hb))
      (h.consume htag n)

omit hP in
private theorem forall_mem_loops (hps : BodyPart.All P ps) : ∀ b ∈ BodyPart.loops ps, P b ∧ '<' ∈ b := by
  induction ps with
  | nil => simp [BodyPart.loops]
  | cons p ps ih =>
    cases p with
    | words t => exact ih hps.2
    | loop kept t =>
      intro b hb
      rcases List.mem_cons.1 hb with rfl | hb
      · exact hps.1
      · exact ih hps.2 b hb

/-- The end of a marker stays in the text if a marker of a dropped loop occurs behind its place. -/
theorem putBack_masked_of_collides (hps : BodyPart.All P ps) (hu : P u) (h : BodyPart.Collides n ps) :
    ∃ s r, putBack n (u ++ BodyPart.masked n ps) (BodyPart.loops ps) = s ++ '\x00' :: r ∧ P s := by
  induction ps generalizing n u with
  | nil => cases h
  | cons p ps ih =>
    cases p with
    | words t =>
      have := ih hps.2 (hP.append u t hu hps.1) h
      simpa only [BodyPart.masked, BodyPart.loops, List.append_assoc] using this
    | loop kept t =>
      cases kept with
      | true =>
        simp only [BodyPart.masked, BodyPart.loops, putBack, ↓reduceIte, (hP.calm u hu).replaceFirst_append,
          replaceFirst_marker]
        rw [← List.append_assoc]
        exact ih hps.2 (hP.append u t hu hps.1.1) (h.resolve_left (by simp))
      | false =>
        simp only [BodyPart.masked, BodyPart.loops, putBack, Bool.false_eq_true, ↓reduceIte, List.nil_append]
        by_cases hmark : marker n <:+: BodyPart.masked (n + 1) ps
        · -- the loop is put in between the ends of other markers
          have hsegs := forall_mem_segments hP (n := n + 1) hps.2 hu
          rw [← joined_segments, replaceFirst_joined n t fun s hs => hP.calm s (hsegs s hs)]
          refine putBack_blocked hP (forall_mem_consume hP hsegs hps.1.1) (forall_mem_loops hps.2) ?_
          refine ((labelled_segments u (n + 1) ps).consume hps.1.2).resolve_left fun hsame => ?_
          have hinfix : marker n <:+: joined (segments u (n + 1) ps) := by
            rw [joined_segments]
            exact hmark.trans (List.suffix_append u _).isInfix
          have hreplaced := replaceFirst_joined n t fun s hs => hP.calm s (hsegs s hs)
          rw [hsame] at hreplaced
          exact replaceFirst_marker_ne hinfix hps.1.2 hreplaced
        · rw [(hP.calm u hu).replaceFirst_append, Text.replaceFirst_of_not_infix hmark]
          exact ih hps.2 hu (h.resolve_left fun hc => hmark hc.2)

end PutBack

end Pagewright.Loop
