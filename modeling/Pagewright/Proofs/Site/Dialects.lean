import Pagewright.Proofs.Include.Forwarding
import Pagewright.Proofs.Template.Form

/-!
# The dialects of placeholders

Four passes fill in placeholders, each of them those of its own dialect: bare names, the frontmatter, a scope, and
global contents. A document here is a list of words and of holes, which are placeholders with any name
(`Segment`). Three things live here:

* what a dialect makes of a name (`Dialect.value?`), and that no name belongs to two dialects
  (`Dialect.value?_eq_none_of_ne`);
* how the parsers read a hole (`Placeholder.parse?_hole`, `GlobalReference.parse?_hole`);
* the pass of a dialect fills in the holes of the dialect and leaves everything else as it is, and the order of two
  passes does not matter as long as what they put in has no braces (`Dialect.pass_write_and_comm`).
-/

namespace Pagewright

open Placeholder

variable {name n e rest t : Text} {written : Option Text} {isNameChar : Char → Bool}

/-! ## Names -/

/-- The path in a name that begins with a scope. -/
def pathIn? (scopeName name : Text) : Option Text :=
  (Text.after? (scopeName ++ ['.']) name).filter fun path => !path.isEmpty

/-- The global contents that a name stands for: those of a file, or a value of the frontmatter in the file. -/
def globalIn? (name : Text) : Option GlobalReference := do
  let path ← pathIn? "global".toList name
  match Text.splitOnce? '.' path with
  | none => some ⟨path, none, none⟩
  | some (file, field) => if file.isEmpty || field.isEmpty then none else some ⟨file, some field, none⟩

/-- What a name begins with, up to its first dot. -/
def firstPart (name : Text) : Text := name.takeWhile (· != '.')

theorem firstPart_append {scopeName path : Text} : firstPart (scopeName ++ '.' :: path) = firstPart scopeName := by
  by_cases hdot : '.' ∈ scopeName
  · exact Text.takeWhile_append_of_mem hdot (by decide)
  · have hall : ∀ c ∈ scopeName, (c != '.') = true := by
      intro c hc
      rw [bne_iff_ne]
      rintro rfl
      exact hdot hc
    rw [firstPart, firstPart, Text.takeWhile_append_cons hall (by decide), List.takeWhile_eq_self_iff.2 hall]

theorem eq_append_of_pathIn? {scopeName path : Text} (h : pathIn? scopeName name = some path) :
    name = scopeName ++ '.' :: path := by
  have htext := Text.after?_eq_some_iff.1 (Option.filter_eq_some_iff.1 h).1
  rwa [List.append_assoc] at htext

/-! ## Dialects -/

inductive Dialect
  | bare | frontmatter | scope | global
deriving DecidableEq

/-- What the names of a document are looked up in. -/
structure Context (σ : Type) where
  site : Site σ
  frontmatter : Fields
  scopeName : Text
  scope : Fields

/-- The name of the scope can stand in a placeholder, and it does not begin as the names of another kind do. -/
structure Context.Proper {σ : Type} (ctx : Context σ) : Prop where
  isKey : IsKey ctx.scopeName
  apart : firstPart ctx.scopeName ∉ ["frontmatter".toList, "global".toList, "collections".toList]

variable {σ : Type} [Storage σ] {ctx : Context σ} {d d' : Dialect}

namespace Dialect

/-- The pass that fills in the placeholders of a dialect. -/
def pass (ctx : Context σ) : Dialect → Text → Text
  | bare => sweepBare
  | frontmatter => replaceFrontmatter ctx.frontmatter
  | scope => replaceScoped ctx.scopeName ctx.scope
  | global => ctx.site.resolveGlobals

/-- What a dialect finds for a name: nothing at all for a name that is not its own, else the value, if there is
one. -/
def value? (ctx : Context σ) : Dialect → Text → Option (Option Text)
  | bare, name => if '.' ∈ name ∨ '(' ∈ name ∨ name ∈ reservedNames then none else some none
  | frontmatter, name =>
    (pathIn? "frontmatter".toList name).map fun path => (ctx.frontmatter.lookup? path).map Json.display
  | scope, name => (pathIn? ctx.scopeName name).map fun path => (ctx.scope.lookup? path).map Json.display
  | global, name => (globalIn? name).map ctx.site.globalText?

/-- What all names of a dialect begin with, up to their first dot; bare names have no dot. -/
def first? (ctx : Context σ) : Dialect → Option Text
  | bare => none
  | frontmatter => some "frontmatter".toList
  | scope => some (firstPart ctx.scopeName)
  | global => some "global".toList

omit [Storage σ] in
theorem first?_inj (hctx : ctx.Proper) (h : d.first? ctx = d'.first? ctx) : d = d' := by
  have hapart := hctx.apart
  simp only [List.mem_cons, List.not_mem_nil, or_false, not_or] at hapart
  obtain ⟨hfront, hglobal, -⟩ := hapart
  have hfront' := Ne.symm hfront
  have hglobal' := Ne.symm hglobal
  cases d <;> cases d' <;> simp_all [first?]

private theorem first_of_map {α : Type} {f : Text → α} {scopeName : Text}
    (h : (pathIn? scopeName name).map f ≠ none) :
    '.' ∈ name ∧ firstPart name = firstPart scopeName := by
  obtain ⟨path, hpath⟩ := Option.ne_none_iff_exists'.1 fun hnone => h (congrArg (Option.map f) hnone)
  obtain rfl := eq_append_of_pathIn? hpath
  exact ⟨by simp, firstPart_append⟩

/-- The first part of a name tells the dialect. -/
theorem first?_of_value? (h : d.value? ctx name ≠ none) :
    d.first? ctx = if '.' ∈ name then some (firstPart name) else none := by
  cases d with
  | bare =>
    have hdot : '.' ∉ name := fun hm => h (if_pos (Or.inl hm))
    rw [if_neg hdot]
    rfl
  | frontmatter =>
    obtain ⟨hdot, hfirst⟩ := first_of_map h
    rw [if_pos hdot, hfirst]
    rfl
  | scope =>
    obtain ⟨hdot, hfirst⟩ := first_of_map h
    rw [if_pos hdot, hfirst]
    rfl
  | global =>
    have hpath : (pathIn? "global".toList name).map id ≠ none := by
      intro hnone
      rw [Option.map_id_fun, id] at hnone
      exact h (by rw [value?, globalIn?, hnone]; rfl)
    obtain ⟨hdot, hfirst⟩ := first_of_map hpath
    rw [if_pos hdot, hfirst]
    rfl

/-- No name belongs to two dialects. -/
theorem value?_eq_none_of_ne (hctx : ctx.Proper) (hne : d ≠ d') (h : d.value? ctx name ≠ none) :
    d'.value? ctx name = none := by
  by_contra h'
  exact hne (first?_inj hctx ((first?_of_value? h).trans (first?_of_value? h').symm))

/-- A name that none of the four dialects has: one of those that later stages fill in, one of a collection, or one
of a dump, unless the scope itself is called like the beginning of a dump. -/
def Foreign (ctx : Context σ) (name : Text) : Prop :=
  name ∈ reservedNames ∨ "collections.".toList <+: name ∨
    "dump(".toList <+: name ∧ ¬ (ctx.scopeName ++ ['.']) <+: name

theorem value?_foreign (hctx : ctx.Proper) (h : Foreign ctx name) (d : Dialect) : d.value? ctx name = none := by
  rcases h with hreserved | ⟨path, rfl⟩ | ⟨⟨path, rfl⟩, hscope⟩
  · have hdot : '.' ∉ name := (by decide : ∀ m ∈ reservedNames, '.' ∉ m) name hreserved
    by_contra hvalue
    have hfirst := first?_of_value? hvalue
    rw [if_neg hdot] at hfirst
    cases d with
    | bare => exact hvalue (if_pos (Or.inr (Or.inr hreserved)))
    | frontmatter | scope | global => cases hfirst
  · by_contra hvalue
    have hfirst : d.first? ctx = some "collections".toList := first?_of_value? hvalue
    cases d with
    | bare => cases hfirst
    | scope => exact hctx.apart (by simp [Option.some.inj hfirst])
    | frontmatter => exact absurd (Option.some.inj hfirst) (by decide)
    | global => exact absurd (Option.some.inj hfirst) (by decide)
  · cases d with
    | bare => exact if_pos (Or.inr (Or.inl (by simp)))
    | frontmatter | global => rfl
    | scope =>
      have hafter : Text.after? (ctx.scopeName ++ ['.']) ("dump(".toList ++ path) = none :=
        Text.after?_eq_none_iff.2 hscope
      rw [value?, pathIn?, hafter]
      rfl

end Dialect

/-! ## Documents -/

/-- A part of a document: words, or the placeholder of a name, with its fallback if it has one. -/
inductive Segment
  | words (u : Text)
  | hole (name : Text) (fallback : Option Text)
deriving DecidableEq

namespace Segment

/-- How a placeholder goes on behind its name. -/
def ending : Option Text → Text
  | none => ['\x7d']
  | some w => " or ".toList ++ (w ++ ['\x7d'])

def write : Segment → Text
  | words u => u
  | hole name fallback => '\x7b' :: (name ++ ending fallback)

/-- No placeholder begins in the words; a name has no white space, no brace and no bar, and a fallback has no
brace. -/
def Proper : Segment → Prop
  | words u => '\x7b' ∉ u
  | hole name fallback =>
    name ≠ [] ∧ IsKey name ∧ ∀ w ∈ fallback, w ≠ [] ∧ '\x7b' ∉ w ∧ '\x7d' ∉ w

instance : (s : Segment) → Decidable s.Proper
  | words u => inferInstanceAs (Decidable ('\x7b' ∉ u))
  | hole name fallback =>
    inferInstanceAs (Decidable
      (name ≠ [] ∧ IsKey name ∧ ∀ w ∈ fallback, w ≠ [] ∧ '\x7b' ∉ w ∧ '\x7d' ∉ w))

/-- A document as a dialect leaves it. A hole of its own becomes the value, else the fallback; without both it stays
as it is, except that nothing is put in for global contents. -/
def fill (ctx : Context σ) (d : Dialect) : Segment → Segment
  | words u => words u
  | hole name fallback =>
    match d.value? ctx name with
    | none => hole name fallback
    | some value =>
      match value.or (fallback.map fallbackText) with
      | some u => words u
      | none => if d = .global then words [] else hole name fallback

/-- No placeholder begins in what the dialect finds for the name. -/
def Calm (ctx : Context σ) (d : Dialect) : Segment → Prop
  | words _ => True
  | hole name _ => ∀ value ∈ d.value? ctx name, ∀ v ∈ value, '\x7b' ∉ v

instance (ctx : Context σ) (d : Dialect) : (s : Segment) → Decidable (s.Calm ctx d)
  | words _ => inferInstanceAs (Decidable True)
  | hole name _ => inferInstanceAs (Decidable (∀ value ∈ d.value? ctx name, ∀ v ∈ value, '\x7b' ∉ v))

end Segment

/-! ## Reading a hole -/

/-- What ends a placeholder is none of the characters of a name. -/
private theorem notMem_of_isKey {c : Char} (h : IsKey n) (hc : isPathChar c = false) :
    c ∉ n := by
  intro hm
  rw [(h c hm).1] at hc
  cases hc

private theorem isKey_of_after? {p m : Text} (h : IsKey n) (hm : Text.after? p n = some m) :
    IsKey m := by
  rw [Text.after?_eq_some_iff.1 hm] at h
  exact fun c hc => h c (List.mem_append_right p hc)

namespace Placeholder

theorem tail?_ending (h : ∀ w ∈ written, w ≠ [] ∧ '\x7b' ∉ w ∧ '\x7d' ∉ w) (rest : Text) :
    tail? (Segment.ending written ++ rest) = some (written, rest) := by
  cases written with
  | none => rfl
  | some w =>
    obtain ⟨hne, -, hclose⟩ := h w rfl
    obtain ⟨x, w, rfl⟩ := List.exists_cons_of_ne_nil hne
    have hread : tail? (' ' :: ([] ++ 'o' :: 'r' :: ' ' :: x :: (w ++ '\x7d' :: rest))) = some (some (x :: w), rest) :=
      tail?_or (by decide) (by simp) (by decide) hclose
    have htext : Segment.ending (some (x :: w)) ++ rest =
        ' ' :: ([] ++ 'o' :: 'r' :: ' ' :: x :: (w ++ '\x7d' :: rest)) := by
      simp [Segment.ending]
    rw [htext, hread]

/-- A hole is read when its name is the opening and then at least one character, all of the dialect. -/
theorem parse?_hole {opening : Text} (hopening : IsKey opening) (hn : IsKey n)
    (hchar : ∀ c, isNameChar c → isPathChar c) (he : tail? e = some (written, rest)) :
    parse? ('\x7b' :: opening) isNameChar ('\x7b' :: (n ++ e)) =
      ((Text.after? opening n).filter fun path => !path.isEmpty && path.all isNameChar).map
        fun path => (path, written, rest) := by
  obtain ⟨d, s, rfl, hd⟩ := head_of_tail? he
  have hafter : Text.after? ('\x7b' :: opening) ('\x7b' :: (n ++ d :: s)) =
      (Text.after? opening n).map (· ++ d :: s) := by
    rw [Text.after?, if_pos rfl, Text.after?_append_cons (notMem_of_isKey hopening hd)]
  rw [parse?, hafter]
  cases hpath : Text.after? opening n with
  | none => rfl
  | some path =>
    have hkey : IsKey path := isKey_of_after? hn hpath
    have hstop : isNameChar d = false := by
      rw [← Bool.not_eq_true]
      intro hname
      rw [hchar d hname] at hd
      cases hd
    simp only [Option.map_some, Option.bind_eq_bind, Option.bind_some, Option.pure_def]
    cases hdrop : path.dropWhile isNameChar with
    | nil =>
      have hall : ∀ c ∈ path, isNameChar c := List.dropWhile_eq_nil_iff.1 hdrop
      rw [Text.takeWhile_append_cons hall hstop, Text.dropWhile_append_cons hall hstop, he]
      by_cases hempty : path.isEmpty
      · simp [hempty, Option.filter]
      · have hread : (some path).filter (fun path => !path.isEmpty && path.all isNameChar) = some path :=
          Option.filter_some_pos (by simp [hempty, List.all_eq_true.2 hall])
        rw [hread, if_neg hempty]
        rfl
    | cons c u =>
      -- the name goes on with a character of another dialect
      have hmem : c ∈ path := (List.dropWhile_suffix isNameChar).subset (hdrop ▸ List.mem_cons_self)
      have hrest : (path ++ d :: s).dropWhile isNameChar = c :: (u ++ d :: s) := by
        rw [List.dropWhile_append, hdrop]
        rfl
      have hall : ¬ path.all isNameChar = true := by
        intro hall
        rw [List.dropWhile_eq_nil_iff.2 (List.all_eq_true.1 hall)] at hdrop
        cases hdrop
      have hread : (some path).filter (fun path => !path.isEmpty && path.all isNameChar) = none :=
        Option.filter_some_neg (by simp only [hall, Bool.and_false])
      have hpathChar := (hkey c hmem).1
      simp only [isPathChar, Bool.and_eq_true, bne_iff_ne, ne_eq, Bool.not_eq_true'] at hpathChar
      rw [hrest, tail?_cons_of_ne hpathChar.1.1 hpathChar.2, hread]
      exact ite_self _

end Placeholder

/-- A hole is read when its name is one of global contents. -/
theorem GlobalReference.parse?_hole (hn : IsKey n) (he : tail? e = some (written, rest)) :
    GlobalReference.parse? ('\x7b' :: (n ++ e)) =
      (globalIn? n).map fun g => (⟨g.file, g.path, written⟩, rest) := by
  obtain ⟨d, s, rfl, hd⟩ := head_of_tail? he
  have hafter : Text.after? "\x7bglobal.".toList ('\x7b' :: (n ++ d :: s)) =
      (Text.after? "global.".toList n).map (· ++ d :: s) := by
    have hnot : d ∉ "global.".toList := notMem_of_isKey (by decide) hd
    exact (if_pos rfl).trans (Text.after?_append_cons hnot)
  have hstop : isGlobalNameChar d = false := by
    rw [isGlobalNameChar, hd]
    rfl
  rw [GlobalReference.parse?, hafter, globalIn?, pathIn?]
  show _ = Option.map _ (((Text.after? "global.".toList n).filter fun path => !path.isEmpty).bind _)
  cases hpath : Text.after? "global.".toList n with
  | none => rfl
  | some path =>
    have hkey : IsKey path := isKey_of_after? hn hpath
    have hfileChar : ∀ u, '.' ∉ u → IsKey u → ∀ c ∈ u, isGlobalNameChar c = true := by
      intro u hdot hu c hc
      have hne : c ≠ '.' := fun h => hdot (h ▸ hc)
      simp [isGlobalNameChar, (hu c hc).1, hne]
    simp only [Option.map_some, Option.bind_eq_bind, Option.bind_some, Option.pure_def]
    by_cases hdot : '.' ∈ path
    · obtain ⟨file, field, rfl, hfile⟩ := List.eq_append_cons_of_mem hdot
      have hfileKey : IsKey file := fun c hc => hkey c (List.mem_append_left _ hc)
      have hfieldChar : ∀ c ∈ field, isPathChar c = true := fun c hc => (hkey c (by simp [hc])).1
      have hall := hfileChar file hfile hfileKey
      have hpoint : isGlobalNameChar '.' = false := by decide
      have htext : file ++ '.' :: field ++ d :: s = file ++ '.' :: (field ++ d :: s) := List.append_assoc _ _ _
      have hfilter : (some (file ++ '.' :: field)).filter (fun path => !path.isEmpty) = some (file ++ '.' :: field) :=
        Option.filter_some_pos (by simp)
      rw [htext, Text.takeWhile_append_cons hall hpoint, Text.dropWhile_append_cons hall hpoint, hfilter,
        Option.bind_some, Text.splitOnce?_append hfile]
      simp only [Text.takeWhile_append_cons hfieldChar hd, Text.dropWhile_append_cons hfieldChar hd, he]
      by_cases hfileEmpty : file.isEmpty <;> by_cases hfieldEmpty : field.isEmpty <;>
        simp [hfileEmpty, hfieldEmpty]
    · have hall := hfileChar path hdot hkey
      have hne : d ≠ '.' := by
        rintro rfl
        exact absurd hd (by decide)
      rw [Text.takeWhile_append_cons hall hstop, Text.dropWhile_append_cons hall hstop]
      by_cases hempty : path.isEmpty
      · simp [hempty, Option.filter]
      · have hfilter : (some path).filter (fun path => !path.isEmpty) = some path :=
          Option.filter_some_pos (by simp [hempty])
        rw [hfilter, Option.bind_some, Text.splitOnce?_of_notMem hdot, if_neg hempty]
        split
        · next heq => exact absurd (List.cons.inj heq).1 hne
        · rw [he]
          rfl

/-! ## The passes -/

theorem Segment.notMem_ending (h : ∀ w ∈ written, w ≠ [] ∧ '\x7b' ∉ w ∧ '\x7d' ∉ w) : '\x7b' ∉ ending written := by
  cases written with
  | none => decide
  | some w => simp [ending, (h w rfl).2.1]

/-- No other placeholder begins in a hole. -/
theorem Segment.Proper.notMem_behind (h : (hole n written).Proper) : '\x7b' ∉ n ++ ending written := by
  obtain ⟨-, hn, hwritten⟩ := h
  rw [List.mem_append, not_or]
  exact ⟨hn.notMem_open, notMem_ending hwritten⟩

/-- A placeholder of a scope is a hole whose name is a path in the scope. -/
theorem Placeholder.parse?_scopeOpening {scopeName : Text} (hscope : IsKey scopeName)
    (hn : IsKey n) (he : tail? e = some (written, rest)) :
    parse? (scopeOpening scopeName) isPathChar ('\x7b' :: (n ++ e)) =
      (pathIn? scopeName n).map fun path => (path, written, rest) := by
  have hopening : IsKey (scopeName ++ ['.']) := by
    intro c hc
    rcases List.mem_append.1 hc with hc | hc
    · exact hscope c hc
    · rw [List.mem_singleton.1 hc]
      decide
  refine (parse?_hole hopening hn (fun _ hc => hc) he).trans ?_
  rw [pathIn?]
  cases hpath : Text.after? (scopeName ++ ['.']) n with
  | none => rfl
  | some path =>
    have hall : path.all isPathChar = true :=
      List.all_eq_true.2 fun c hc => (isKey_of_after? hn hpath c hc).1
    simp only [Option.filter, hall, Bool.and_true]

/-- A scope fills in the holes whose names are paths in it. -/
theorem Placeholder.replace_hole {scopeName : Text} {lookup : Text → Option Text}
    (hscope : IsKey scopeName) (hhole : (Segment.hole n written).Proper) (rest : Text) :
    replace (scopeOpening scopeName) isPathChar lookup
        ((Segment.hole n written).write ++ rest) =
      ((pathIn? scopeName n).elim (Segment.hole n written).write fun path =>
          filled (lookup path) written (Segment.hole n written).write) ++
        replace (scopeOpening scopeName) isPathChar lookup rest := by
  have hbehind := hhole.notMem_behind
  obtain ⟨-, hn, hwritten⟩ := hhole
  have hparse : parse? (scopeOpening scopeName) isPathChar
      ('\x7b' :: (n ++ Segment.ending written ++ rest)) =
        (pathIn? scopeName n).map fun path => (path, written, rest) := by
    rw [List.append_assoc]
    exact parse?_scopeOpening hscope hn (tail?_ending hwritten rest)
  rw [Segment.write]
  generalize n ++ Segment.ending written = behind at hbehind hparse ⊢
  have hconsumed : Text.consumed ('\x7b' :: (behind ++ rest)) rest = '\x7b' :: behind :=
    Text.consumed_cons_append '\x7b' behind rest
  refine Text.substitute_first_append (fun c s hc => ?_) hbehind ?_
  · rw [scopeOpening, List.cons_append, parse?_cons_of_ne hc]
  · rw [hparse]
    cases pathIn? scopeName n with
    | none => exact Or.inr ⟨rfl, rfl⟩
    | some path =>
      refine Or.inl ?_
      cases hlookup : lookup path <;> cases written <;> simp [filled, hlookup, hconsumed]

namespace Dialect

theorem all_isBareChar_iff (hn : IsKey n) :
    n.all isBareChar = true ↔ '.' ∉ n ∧ '(' ∉ n := by
  rw [List.all_eq_true]
  constructor
  · exact fun h => ⟨fun hm => absurd (h _ hm) (by decide), fun hm => absurd (h _ hm) (by decide)⟩
  · rintro ⟨hdot, hparen⟩ c hc
    have hcdot : c ≠ '.' := fun h => hdot (h ▸ hc)
    have hcparen : c ≠ '(' := fun h => hparen (h ▸ hc)
    simp [isBareChar, (hn c hc).1, hcdot, hcparen]

/-- The sweep fills in the holes with bare names. -/
theorem pass_hole_bare (hhole : (Segment.hole n written).Proper) (rest : Text) :
    bare.pass ctx ((Segment.hole n written).write ++ rest) =
      ((Segment.hole n written).fill ctx bare).write ++ bare.pass ctx rest := by
  have hbehind := hhole.notMem_behind
  obtain ⟨hne, hn, hwritten⟩ := hhole
  have hparse : parse? ['\x7b'] isBareChar ('\x7b' :: (n ++ Segment.ending written ++ rest)) =
      if n.all isBareChar then some (n, written, rest) else none := by
    have hopening : IsKey [] := by decide
    have hchar : ∀ c, isBareChar c → isPathChar c := fun _ => isPathChar_of_isBareChar
    have hnonempty : n.isEmpty = false := List.isEmpty_eq_false_iff.2 hne
    rw [List.append_assoc, parse?_hole hopening hn hchar (tail?_ending hwritten rest)]
    show ((some n).filter _).map _ = _
    cases hall : n.all isBareChar <;> simp [Option.filter, hall, hnonempty]
  show sweepBare ('\x7b' :: (n ++ Segment.ending written) ++ rest) = _
  rw [List.cons_append]
  refine Text.substitute_first_append (fun c s hc => by rw [parse?_cons_of_ne hc]) hbehind ?_
  rw [hparse]
  by_cases hall : n.all isBareChar = true
  · have hconsumed : Text.consumed ('\x7b' :: (n ++ Segment.ending written ++ rest)) rest =
        '\x7b' :: (n ++ Segment.ending written) :=
      Text.consumed_cons_append '\x7b' (n ++ Segment.ending written) rest
    obtain ⟨hdot, hparen⟩ := (all_isBareChar_iff hn).1 hall
    rw [if_pos hall]
    refine Or.inl ?_
    by_cases hreserved : n ∈ reservedNames
    · have hvalue : bare.value? ctx n = none := if_pos (Or.inr (Or.inr hreserved))
      rw [Segment.fill, hvalue]
      cases written <;> simp only [hreserved, if_true, hconsumed, Segment.write]
    · have hvalue : bare.value? ctx n = some none :=
        if_neg (by simp only [hdot, hparen, hreserved, or_self, not_false_eq_true])
      rw [Segment.fill, hvalue]
      cases written with
      | none => exact congrArg (fun u => some (u, rest)) hconsumed
      | some w => exact congrArg (fun u => some (u, rest)) (if_neg hreserved)
  · have hother : '.' ∈ n ∨ '(' ∈ n ∨ n ∈ reservedNames := by
      rw [all_isBareChar_iff hn, not_and_or, not_not, not_not] at hall
      exact hall.imp_right Or.inl
    have hfill : (Segment.hole n written).fill ctx bare = Segment.hole n written := by
      rw [Segment.fill, value?, if_pos hother]
    rw [if_neg hall, hfill]
    exact Or.inr ⟨rfl, rfl⟩

/-- The pass for global contents fills in the holes with their names. -/
theorem pass_hole_global (hhole : (Segment.hole n written).Proper) (rest : Text) :
    global.pass ctx ((Segment.hole n written).write ++ rest) =
      ((Segment.hole n written).fill ctx global).write ++ global.pass ctx rest := by
  have hbehind := hhole.notMem_behind
  obtain ⟨-, hn, hwritten⟩ := hhole
  have hparse : GlobalReference.parse? ('\x7b' :: (n ++ Segment.ending written ++ rest)) =
      (globalIn? n).map fun g => (⟨g.file, g.path, written⟩, rest) := by
    rw [List.append_assoc]
    exact GlobalReference.parse?_hole hn (tail?_ending hwritten rest)
  show ctx.site.resolveGlobals ('\x7b' :: (n ++ Segment.ending written) ++ rest) = _
  rw [List.cons_append]
  refine Text.substitute_first_append (fun c s hc => by rw [GlobalReference.parse?_cons_of_ne hc]; rfl) hbehind ?_
  rw [hparse, Segment.fill, value?]
  cases globalIn? n with
  | none => exact Or.inr ⟨rfl, rfl⟩
  | some g =>
    have htext : ctx.site.globalText? ⟨g.file, g.path, written⟩ = ctx.site.globalText? g := rfl
    refine Or.inl ?_
    simp only [Option.map_some, htext]
    cases ctx.site.globalText? g <;> cases written <;> rfl

/-- A scope fills in the holes with paths in it. -/
theorem pass_hole_path {scopeName : Text} {lookup : Text → Option Text} (hd : d ≠ global)
    (hscope : IsKey scopeName) (hvalue : d.value? ctx n = (pathIn? scopeName n).map lookup)
    (hpass : d.pass ctx = replace (scopeOpening scopeName) isPathChar lookup)
    (hhole : (Segment.hole n written).Proper) (rest : Text) :
    d.pass ctx ((Segment.hole n written).write ++ rest) =
      ((Segment.hole n written).fill ctx d).write ++ d.pass ctx rest := by
  rw [hpass, replace_hole hscope hhole, Segment.fill, hvalue]
  cases pathIn? scopeName n with
  | none => rfl
  | some path =>
    simp only [Option.map_some, Option.elim_some, if_neg hd]
    cases lookup path <;> cases written <;> rfl

/-- The pass of a dialect fills in a hole and goes on behind it. -/
theorem pass_hole (hctx : ctx.Proper) (hhole : (Segment.hole n written).Proper) (rest : Text) :
    d.pass ctx ((Segment.hole n written).write ++ rest) =
      ((Segment.hole n written).fill ctx d).write ++ d.pass ctx rest := by
  cases d with
  | bare => exact pass_hole_bare hhole rest
  | frontmatter => exact pass_hole_path (by decide) (by decide) rfl rfl hhole rest
  | scope => exact pass_hole_path (by decide) hctx.isKey rfl rfl hhole rest
  | global => exact pass_hole_global hhole rest

/-- The pass of a dialect goes over words. -/
theorem pass_append_of_notMem (ht : '\x7b' ∉ t) (rest : Text) : d.pass ctx (t ++ rest) = t ++ d.pass ctx rest := by
  cases d with
  | bare => exact sweepBare_append_of_notMem ht rest
  | frontmatter => exact replaceScoped_append_of_notMem ht _ _ rest
  | scope => exact replaceScoped_append_of_notMem ht _ _ rest
  | global =>
    refine Text.substitute_append_of_notMem (fun c s hc => ?_) ht rest
    rw [GlobalReference.parse?_cons_of_ne hc]
    rfl

theorem pass_nil : d.pass ctx [] = [] := by
  cases d <;> exact Text.substitute.eq_1 _

/-- A dialect fills in a document part by part. -/
theorem pass_write {segments : List Segment} (hctx : ctx.Proper) (hsegments : ∀ s ∈ segments, s.Proper) (d : Dialect) :
    d.pass ctx (segments.flatMap Segment.write) = (segments.map (Segment.fill ctx d)).flatMap Segment.write := by
  induction segments with
  | nil => exact pass_nil
  | cons s segments ih =>
    obtain ⟨hs, hsegments⟩ := List.forall_mem_cons.1 hsegments
    rw [List.flatMap_cons, List.map_cons, List.flatMap_cons, ← ih hsegments]
    cases s with
    | words u => exact pass_append_of_notMem hs _
    | hole n written => exact pass_hole hctx hs _

end Dialect

/-! ## Two passes -/

namespace Segment

variable {s : Segment}

/-- What is put in has no brace that opens, so it is words of the document from then on. -/
theorem Proper.fill (hs : s.Proper) (hcalm : s.Calm ctx d) : (s.fill ctx d).Proper := by
  cases s with
  | words u => exact hs
  | hole n written =>
    rw [Segment.fill]
    cases hvalue : d.value? ctx n with
    | none => exact hs
    | some value =>
      cases value with
      | some v => exact hcalm _ hvalue v rfl
      | none =>
        cases written with
        | some w =>
          obtain ⟨-, hopen, -⟩ := hs.2.2 w rfl
          exact fun hm => hopen ((fallbackText_sublist w).subset hm)
        | none =>
          show (if d = .global then words [] else hole n none).Proper
          split
          · exact List.not_mem_nil
          · exact hs

theorem fill_of_value?_eq_none (h : d.value? ctx n = none) : (hole n written).fill ctx d = hole n written := by
  rw [Segment.fill, h]

theorem fill_hole (ctx : Context σ) (d : Dialect) (n : Text) (written : Option Text) :
    (hole n written).fill ctx d = hole n written ∨ ∃ u, (hole n written).fill ctx d = words u := by
  rw [Segment.fill]
  split
  · exact Or.inl rfl
  · split
    · exact Or.inr ⟨_, rfl⟩
    · split
      · exact Or.inr ⟨_, rfl⟩
      · exact Or.inl rfl

private theorem fill_fill (h : d'.value? ctx n = none) :
    ((hole n written).fill ctx d).fill ctx d' = (hole n written).fill ctx d := by
  rcases fill_hole ctx d n written with hfill | ⟨u, hfill⟩
  · rw [hfill, fill_of_value?_eq_none h]
  · rw [hfill]
    rfl

/-- A hole has one dialect at most, so only one of two dialects does anything about it. -/
theorem fill_comm (hctx : ctx.Proper) (d d' : Dialect) (s : Segment) :
    (s.fill ctx d).fill ctx d' = (s.fill ctx d').fill ctx d := by
  by_cases hne : d = d'
  · rw [hne]
  · cases s with
    | words u => rfl
    | hole n written =>
      by_cases hvalue : d.value? ctx n = none
      · rw [fill_of_value?_eq_none hvalue, fill_fill hvalue]
      · have hother : d'.value? ctx n = none := Dialect.value?_eq_none_of_ne hctx hne hvalue
        rw [fill_of_value?_eq_none hother, fill_fill hother]

end Segment

namespace Dialect

variable {segments : List Segment}

/-- The order of two passes does not matter when what they put in has no brace that opens. -/
theorem pass_comm (hctx : ctx.Proper) (hsegments : ∀ s ∈ segments, s.Proper)
    (hcalm : ∀ d, ∀ s ∈ segments, s.Calm ctx d) (d d' : Dialect) :
    d.pass ctx (d'.pass ctx (segments.flatMap Segment.write)) =
      d'.pass ctx (d.pass ctx (segments.flatMap Segment.write)) := by
  have hfill : ∀ d, ∀ s ∈ segments.map (Segment.fill ctx d), s.Proper := by
    intro d s hs
    obtain ⟨s, hmem, rfl⟩ := List.mem_map.1 hs
    exact (hsegments s hmem).fill (hcalm d s hmem)
  rw [pass_write hctx hsegments, pass_write hctx hsegments, pass_write hctx (hfill d'), pass_write hctx (hfill d),
    List.map_map, List.map_map]
  congr 2
  funext s
  exact Segment.fill_comm hctx d' d s

/-- The dialects do not interfere. Each pass fills in the holes of its own dialect and leaves all other characters of
a document as they are; a name belongs to one dialect at most, and those that other stages fill in belong to none;
and the order of two passes does not matter when what they put in has no brace that opens. -/
theorem pass_write_and_comm (hctx : ctx.Proper) (hsegments : ∀ s ∈ segments, s.Proper) :
    (∀ d : Dialect, d.pass ctx (segments.flatMap Segment.write) =
        (segments.map (Segment.fill ctx d)).flatMap Segment.write) ∧
      (∀ (d d' : Dialect) (n : Text), d ≠ d' → d.value? ctx n ≠ none → d'.value? ctx n = none) ∧
      (∀ (d : Dialect) (n : Text), Foreign ctx n → d.value? ctx n = none) ∧
      ((∀ d : Dialect, ∀ s ∈ segments, s.Calm ctx d) → ∀ d d' : Dialect,
        d.pass ctx (d'.pass ctx (segments.flatMap Segment.write)) =
          d'.pass ctx (d.pass ctx (segments.flatMap Segment.write))) :=
  ⟨pass_write hctx hsegments, fun _ _ _ hne => value?_eq_none_of_ne hctx hne,
    fun d _ hforeign => value?_foreign hctx hforeign d, pass_comm hctx hsegments⟩

/-! ### A document with all dialects -/

/-- A frontmatter, a scope and global contents with a value each. -/
def sampleContext : Context MemoryStore where
  site :=
    { store := .ofList [(⟨"content/global/site.md".toList⟩, "Hi".toList)]
      settings := SiteSettings.default
      collections := [] }
  frontmatter := [("t".toList, .string "T".toList)]
  scopeName := "post".toList
  scope := [("t".toList, .string "P".toList)]

def sampleSegments : List Segment :=
  [.words "a ".toList, .hole "x".toList (some "'y'".toList), .hole "content".toList none,
    .hole "frontmatter.t".toList none, .hole "post.t".toList (some "z".toList), .hole "post.u".toList none,
    .hole "global.site".toList none, .hole "global.site.u".toList none, .hole "collections.c.json".toList none,
    .hole "dump('p')".toList none]

theorem pass_sampleSegments :
    scope.pass sampleContext (sampleSegments.flatMap Segment.write) =
        ("a \x7bx or 'y'\x7d\x7bcontent\x7d\x7bfrontmatter.t\x7dP\x7bpost.u\x7d\x7bglobal.site\x7d" ++
          "\x7bglobal.site.u\x7d\x7bcollections.c.json\x7d\x7bdump('p')\x7d").toList ∧
      ∀ d d' : Dialect, d.pass sampleContext (d'.pass sampleContext (sampleSegments.flatMap Segment.write)) =
        d'.pass sampleContext (d.pass sampleContext (sampleSegments.flatMap Segment.write)) := by
  have hctx : sampleContext.Proper := ⟨by decide, by decide⟩
  have hsegments : ∀ s ∈ sampleSegments, s.Proper := by decide +kernel
  have hcalm : ∀ d : Dialect, ∀ s ∈ sampleSegments, s.Calm sampleContext d := by
    intro d
    cases d <;> decide +kernel
  obtain ⟨hpass, -, -, hcomm⟩ := pass_write_and_comm hctx hsegments
  refine ⟨?_, hcomm hcalm⟩
  rw [hpass]
  decide +kernel

end Dialect

end Pagewright
