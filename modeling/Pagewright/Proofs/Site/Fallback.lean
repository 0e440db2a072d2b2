import Pagewright.Proofs.Site.Dialects
import Pagewright.Proofs.Template.WrittenTag

/-!
# What fallbacks mean

A placeholder whose name is missing becomes its fallback, and what a fallback means is the same in all dialects: nothing
for `null`, what stands between two quotes of the same kind, and the text itself without the white space around it
otherwise (`FallbackMeans`). Three things live here:

* what is put in for a fallback (`fallbackText_of_quotes`, `fallbackText_of_plain`). It takes off quotes of different
  kinds too, so it is what the fallback means if and only if there are none (`fallbackMeans_iff`);
* what is missing in a dialect (`Dialect.Misses`), and that each pass puts in the fallback there, whatever is written
  around the placeholder (`Dialect.pass_missing`);
* the two together (`Dialect.pass_fallback_iff`), and the fallback `'a"`, which loses its quotes
  (`sweepBare_mixedQuotes`).
-/

namespace Pagewright

open Placeholder

variable {raw u v gap : Text} {c q q' : Char}

/-! ## Meaning -/

/-- What a fallback means. -/
inductive FallbackMeans (raw : Text) : Text → Prop
  | null : Text.trim raw = "null".toList → FallbackMeans raw []
  | quoted {q : Char} {u : Text} : isQuote q → Text.trim raw = q :: (u ++ [q]) → FallbackMeans raw u
  | plain : Text.trim raw ≠ "null".toList → (∀ q u, isQuote q → Text.trim raw ≠ q :: (u ++ [q])) →
    FallbackMeans raw (Text.trim raw)

/-- A fallback begins with a quote of one kind and ends with one of the other kind. -/
def HasMixedQuotes (raw : Text) : Prop :=
  ∃ q q' u, isQuote q ∧ isQuote q' ∧ q ≠ q' ∧ Text.trim raw = q :: (u ++ [q'])

theorem not_quoted_of_eq_null (h : Text.trim raw = "null".toList) (hq : isQuote q) : Text.trim raw ≠ q :: v := by
  rw [h]
  rintro heq
  rw [← (List.cons.inj heq).1] at hq
  exact absurd hq (by decide)

theorem FallbackMeans.unique (hu : FallbackMeans raw u) (hv : FallbackMeans raw v) : u = v := by
  cases hu with
  | null hnull =>
    cases hv with
    | null => rfl
    | quoted hq heq => exact absurd heq (not_quoted_of_eq_null hnull hq)
    | plain hne => exact absurd hnull hne
  | quoted hq heq =>
    cases hv with
    | null hnull => exact absurd heq (not_quoted_of_eq_null hnull hq)
    | quoted hq' heq' => exact (List.append_inj' (List.cons.inj (heq.symm.trans heq')).2 rfl).1
    | plain _ hplain => exact absurd heq (hplain _ _ hq)
  | plain hne hplain =>
    cases hv with
    | null hnull => exact absurd hnull hne
    | quoted hq heq => exact absurd heq (hplain _ _ hq)
    | plain => rfl

/-! ## What is put in -/

theorem fallbackText_of_null (h : Text.trim raw = "null".toList) : fallbackText raw = [] := by
  simp only [fallbackText, h, if_pos]

/-- Two quotes are taken off, whatever their kinds. -/
theorem fallbackText_of_quotes (hq : isQuote q) (hq' : isQuote q') (h : Text.trim raw = q :: (u ++ [q'])) :
    fallbackText raw = u := by
  have hnull : Text.trim raw ≠ "null".toList := fun hnull => not_quoted_of_eq_null hnull hq h
  obtain ⟨d, r, hd⟩ := List.exists_cons_of_ne_nil (List.append_ne_nil_of_right_ne_nil u (List.cons_ne_nil q' []))
  have hlast : (d :: r).getLast (List.cons_ne_nil d r) = q' := by
    simp only [← hd, List.getLast_append_singleton]
  have hinit : (d :: r).dropLast = u := by rw [← hd, List.dropLast_concat]
  rw [hd] at h
  simp only [isQuote] at hq hq'
  unfold fallbackText
  simp only [if_neg hnull]
  split
  · next c e s heq =>
    obtain ⟨rfl, rfl, rfl⟩ : q = c ∧ d = e ∧ r = s := by simpa using h.symm.trans heq
    simp only [hlast, hq, hq', Bool.and_true, if_true, hinit]
  · next hshort => exact absurd h (hshort _ _ _)

theorem fallbackText_of_plain (hnull : Text.trim raw ≠ "null".toList)
    (h : ∀ q q' u, isQuote q → isQuote q' → Text.trim raw ≠ q :: (u ++ [q'])) : fallbackText raw = Text.trim raw := by
  unfold fallbackText
  simp only [if_neg hnull]
  split
  · next c d r heq =>
    refine if_neg fun hquotes => ?_
    rw [Bool.and_eq_true] at hquotes
    have hbehind : (d :: r).dropLast ++ [(d :: r).getLast (List.cons_ne_nil d r)] = d :: r :=
      List.dropLast_concat_getLast _
    exact h _ _ _ hquotes.1 hquotes.2 (by rw [heq, hbehind])
  · rfl

/-- White space before a fallback is not a part of it. -/
theorem fallbackText_gap (h : IsGap gap) : fallbackText (gap ++ raw) = fallbackText raw := by
  have htrim : Text.trim (gap ++ raw) = Text.trim raw := congrArg Text.trimEnd (OpenTag.trimStart_gap h)
  simp only [fallbackText, htrim]

theorem exists_fallbackMeans (raw : Text) : ∃ u, FallbackMeans raw u := by
  by_cases hnull : Text.trim raw = "null".toList
  · exact ⟨_, .null hnull⟩
  · by_cases hquoted : ∃ q u, isQuote q ∧ Text.trim raw = q :: (u ++ [q])
    · obtain ⟨q, u, hq, heq⟩ := hquoted
      exact ⟨u, .quoted hq heq⟩
    · exact ⟨_, .plain hnull fun q u hq heq => hquoted ⟨q, u, hq, heq⟩⟩

/-- What is put in is what the fallback means, unless it is in quotes of different kinds. -/
theorem fallbackMeans_iff : FallbackMeans raw (fallbackText raw) ↔ ¬ HasMixedQuotes raw := by
  constructor
  · rintro hmeans ⟨q, q', u, hq, hq', hne, heq⟩
    rw [fallbackText_of_quotes hq hq' heq] at hmeans
    have hplain : FallbackMeans raw (Text.trim raw) := by
      refine .plain (fun hnull => not_quoted_of_eq_null hnull hq heq) fun p v _ hp => ?_
      -- a text between two quotes of one kind ends with the quote that it begins with
      obtain ⟨rfl, hbehind⟩ := List.cons.inj (heq.symm.trans hp)
      exact hne (List.cons.inj (List.append_inj' hbehind rfl).2).1.symm
    have hlength := congrArg List.length (hmeans.unique hplain)
    simp only [heq, List.length_cons, List.length_append] at hlength
    omega
  · intro hmixed
    obtain ⟨u, hmeans⟩ := exists_fallbackMeans raw
    have hput : fallbackText raw = u := by
      cases hmeans with
      | null hnull => exact fallbackText_of_null hnull
      | quoted hq heq => exact fallbackText_of_quotes hq hq heq
      | plain hnull hplain =>
        refine fallbackText_of_plain hnull fun q q' u hq hq' heq => ?_
        by_cases hsame : q = q'
        · exact hplain q u hq (hsame ▸ heq)
        · exact hmixed ⟨q, q', u, hq, hq', hsame, heq⟩
    rwa [hput]

/-! ## Placeholders -/

/-- A placeholder with a fallback, with white space before and behind the `or`. -/
def withFallback (name before behind raw : Text) : Text :=
  '\x7b' :: (name ++ (before ++ ("or".toList ++ (behind ++ (raw ++ ['\x7d'])))))

namespace Placeholder

variable {before behind : Text}

/-- The end of a placeholder with a fallback is read as such. -/
theorem tail?_fallback (hbefore : before ≠ [] ∧ IsGap before) (hbehind : behind ≠ [] ∧ IsGap behind)
    (hne : raw ≠ []) (hraw : '\x7d' ∉ raw) (rest : Text) :
    ∃ w, tail? (before ++ ("or".toList ++ (behind ++ (raw ++ '\x7d' :: rest)))) = some (some w, rest) ∧
      fallbackText w = fallbackText raw := by
  obtain ⟨⟨c, blanks, rfl⟩, hbefore⟩ := hbefore.imp_left List.exists_cons_of_ne_nil
  obtain ⟨⟨b, gap, rfl⟩, hbehind⟩ := hbehind.imp_left List.exists_cons_of_ne_nil
  obtain ⟨hc, hblanks⟩ := List.forall_mem_cons.1 hbefore
  obtain ⟨hb, hgap⟩ := List.forall_mem_cons.1 hbehind
  obtain ⟨x, w, hw⟩ := List.exists_cons_of_ne_nil (List.append_ne_nil_of_right_ne_nil gap hne)
  have hclose : '\x7d' ∉ x :: w := by
    rw [← hw, List.mem_append, not_or]
    exact ⟨fun hm => absurd (hgap _ hm) (by decide), hraw⟩
  refine ⟨x :: w, ?_, ?_⟩
  · have htext : gap ++ (raw ++ '\x7d' :: rest) = x :: (w ++ '\x7d' :: rest) := by
      rw [← List.append_assoc, hw]
      rfl
    show tail? (c :: (blanks ++ 'o' :: 'r' :: b :: (gap ++ (raw ++ '\x7d' :: rest)))) = _
    rw [htext]
    exact tail?_or hc hblanks hb hclose
  · rw [← hw]
    exact fallbackText_gap hgap

end Placeholder

/-- A reference to global contents is read up to the end of its placeholder. -/
theorem GlobalReference.parse?_reference {file t rest : Text} {field written : Option Text}
    (hne : file ≠ []) (hfile : ∀ c ∈ file, isGlobalNameChar c)
    (hfield : ∀ p ∈ field, p ≠ [] ∧ ∀ c ∈ p, isPathChar c) (h : tail? t = some (written, rest)) :
    GlobalReference.parse? ("\x7bglobal.".toList ++ (file ++ (field.elim t fun p => '.' :: (p ++ t)))) =
      some (⟨file, field, written⟩, rest) := by
  obtain ⟨d, s, rfl, hd⟩ := head_of_tail? h
  have hempty := List.isEmpty_eq_false_iff.2 hne
  rw [GlobalReference.parse?, Text.after?_append_self]
  cases field with
  | none =>
    have hstop : isGlobalNameChar d = false := by simp only [isGlobalNameChar, hd, Bool.false_and]
    have hdot : d ≠ '.' := by
      rintro rfl
      exact absurd hd (by decide)
    have htake := Text.takeWhile_append_cons hfile hstop s
    have hdrop := Text.dropWhile_append_cons hfile hstop s
    simp only [Option.elim_none, Option.bind_eq_bind, Option.bind_some, htake, hdrop, hempty, Bool.false_eq_true,
      if_false]
    split
    · next heq => exact absurd (List.cons.inj heq).1 hdot
    · rw [h]
      rfl
  | some p =>
    obtain ⟨hp, hpath⟩ := hfield p rfl
    have hstop : isGlobalNameChar '.' = false := by decide
    have htake := Text.takeWhile_append_cons hfile hstop (p ++ d :: s)
    have hdrop := Text.dropWhile_append_cons hfile hstop (p ++ d :: s)
    have htake' := Text.takeWhile_append_cons hpath hd s
    have hdrop' := Text.dropWhile_append_cons hpath hd s
    simp only [Option.elim_some, Option.bind_eq_bind, Option.bind_some, htake, hdrop, htake', hdrop', hempty,
      List.isEmpty_eq_false_iff.2 hp, Bool.false_eq_true, if_false, h, Option.pure_def]

namespace Dialect

variable {σ : Type} [Storage σ] {ctx : Context σ} {d : Dialect} {name t w rest pre before behind : Text}

/-- The names of a dialect that it finds nothing for. -/
def Misses (ctx : Context σ) : Dialect → Text → Prop
  | bare, name => name ≠ [] ∧ (∀ c ∈ name, isBareChar c) ∧ name ∉ reservedNames
  | frontmatter, name => ∃ path, name = "frontmatter.".toList ++ path ∧ path ≠ [] ∧ (∀ c ∈ path, isPathChar c) ∧
      ctx.frontmatter.lookup? path = none
  | scope, name => ∃ path, name = ctx.scopeName ++ '.' :: path ∧ path ≠ [] ∧ (∀ c ∈ path, isPathChar c) ∧
      ctx.scope.lookup? path = none
  | global, name => ∃ file field, name = "global.".toList ++ (file ++ Option.elim field [] fun p => '.' :: p) ∧
      file ≠ [] ∧ (∀ c ∈ file, isGlobalNameChar c) ∧ (∀ p ∈ field, p ≠ [] ∧ ∀ c ∈ p, isPathChar c) ∧
      ctx.site.globalText? ⟨file, field, none⟩ = none

theorem sweepBare_missing (hne : name ≠ []) (hname : ∀ c ∈ name, isBareChar c) (hreserved : name ∉ reservedNames)
    (h : tail? t = some (some w, rest)) : sweepBare ('\x7b' :: (name ++ t)) = fallbackText w ++ sweepBare rest := by
  have hchar : ∀ c, isBareChar c → isPathChar c := fun _ => isPathChar_of_isBareChar
  have hparse : parse? ['\x7b'] isBareChar ('\x7b' :: (name ++ t)) = some (name, some w, rest) :=
    parse?_name hne hname hchar h
  have hlength : rest.length ≤ (name ++ t).length := by
    obtain ⟨u, rfl, -, -⟩ := eq_append_of_tail? h
    simp only [List.length_append, List.length_cons]
    omega
  refine Text.substitute_cons_some ?_ hlength
  rw [hparse]
  exact congrArg (fun u => some (u, rest)) (if_neg hreserved)

theorem replaceScoped_missing {scopeName path : Text} {scope : Fields} (hne : path ≠ [])
    (hpath : ∀ c ∈ path, isPathChar c) (hlookup : scope.lookup? path = none) (h : tail? t = some (some w, rest)) :
    replaceScoped scopeName scope ('\x7b' :: (scopeName ++ '.' :: path ++ t)) =
      fallbackText w ++ replaceScoped scopeName scope rest := by
  have htext : '\x7b' :: (scopeName ++ '.' :: path ++ t) = scopeOpening scopeName ++ (path ++ t) := by
    simp [scopeOpening]
  rw [htext, replaceScoped, replace_of_parse? (parse?_path hne hpath h), hlookup]
  rfl

theorem resolveGlobals_missing {site : Site σ} {file : Text} {field : Option Text} (hne : file ≠ [])
    (hfile : ∀ c ∈ file, isGlobalNameChar c) (hfield : ∀ p ∈ field, p ≠ [] ∧ ∀ c ∈ p, isPathChar c)
    (hmiss : site.globalText? ⟨file, field, none⟩ = none) (h : tail? t = some (some w, rest)) :
    site.resolveGlobals ('\x7b' :: ("global.".toList ++ (file ++ Option.elim field [] fun p => '.' :: p) ++ t)) =
      fallbackText w ++ site.resolveGlobals rest := by
  have htext : '\x7b' :: ("global.".toList ++ (file ++ Option.elim field [] fun p => '.' :: p) ++ t) =
      "\x7bglobal.".toList ++ (file ++ (field.elim t fun p => '.' :: (p ++ t))) := by
    cases field <;> simp
  have hparse := GlobalReference.parse?_reference hne hfile hfield h
  have hsame : site.globalText? ⟨file, field, some w⟩ = none := hmiss
  obtain ⟨u, htail, -, -⟩ := eq_append_of_tail? h
  have hlength : rest.length ≤ ("global.".toList ++ (file ++ Option.elim field [] fun p => '.' :: p) ++ t).length := by
    simp only [htail, List.length_append, List.length_cons]
    omega
  refine Text.substitute_cons_some ?_ hlength
  rw [htext, hparse]
  simp only [Option.map_some, hsame, Option.getD_none, Option.getD_some]

/-- Where a name is missing, its fallback is put in, in all dialects alike. -/
theorem pass_missing (hmiss : d.Misses ctx name) (h : tail? t = some (some w, rest)) :
    d.pass ctx ('\x7b' :: (name ++ t)) = fallbackText w ++ d.pass ctx rest := by
  cases d with
  | bare => exact sweepBare_missing hmiss.1 hmiss.2.1 hmiss.2.2 h
  | frontmatter =>
    obtain ⟨path, rfl, hne, hpath, hlookup⟩ := hmiss
    exact replaceScoped_missing hne hpath hlookup h
  | scope =>
    obtain ⟨path, rfl, hne, hpath, hlookup⟩ := hmiss
    exact replaceScoped_missing hne hpath hlookup h
  | global =>
    obtain ⟨file, field, rfl, hne, hfile, hfield, hnone⟩ := hmiss
    exact resolveGlobals_missing hne hfile hfield hnone h

/-- The same, with the placeholder as it is written. -/
theorem pass_withFallback (hmiss : d.Misses ctx name) (hbefore : before ≠ [] ∧ IsGap before)
    (hbehind : behind ≠ [] ∧ IsGap behind) (hne : raw ≠ []) (hraw : '\x7d' ∉ raw) (hpre : '\x7b' ∉ pre) (rest : Text) :
    d.pass ctx (pre ++ (withFallback name before behind raw ++ rest)) =
      pre ++ (fallbackText raw ++ d.pass ctx rest) := by
  obtain ⟨w, htail, hw⟩ := tail?_fallback hbefore hbehind hne hraw rest
  have htext : withFallback name before behind raw ++ rest =
      '\x7b' :: (name ++ (before ++ ("or".toList ++ (behind ++ (raw ++ '\x7d' :: rest))))) := by
    simp [withFallback]
  rw [pass_append_of_notMem hpre, htext, pass_missing hmiss htail, hw]

/-- Where a name is missing, every pass puts in what its fallback means, unless the fallback begins with a quote of
one kind and ends with one of the other. Two quotes are always taken off, whatever their kinds. -/
theorem pass_fallback_iff (hmiss : d.Misses ctx name) (hbefore : before ≠ [] ∧ IsGap before)
    (hbehind : behind ≠ [] ∧ IsGap behind) (hne : raw ≠ []) (hraw : '\x7d' ∉ raw) (hpre : '\x7b' ∉ pre) (rest : Text) :
    (∃ u, (∀ v, FallbackMeans raw v ↔ v = u) ∧
        (d.pass ctx (pre ++ (withFallback name before behind raw ++ rest)) = pre ++ (u ++ d.pass ctx rest) ↔
          ¬ HasMixedQuotes raw)) ∧
      ∀ q q' u, isQuote q → isQuote q' → Text.trim raw = q :: (u ++ [q']) →
        d.pass ctx (pre ++ (withFallback name before behind raw ++ rest)) = pre ++ (u ++ d.pass ctx rest) := by
  have hpass := pass_withFallback hmiss hbefore hbehind hne hraw hpre rest
  constructor
  · obtain ⟨u, hmeans⟩ := exists_fallbackMeans raw
    refine ⟨u, fun v => ⟨fun hv => hv.unique hmeans, fun hv => hv ▸ hmeans⟩, ?_⟩
    rw [hpass, List.append_cancel_left_eq, List.append_cancel_right_eq, ← fallbackMeans_iff]
    exact ⟨fun hput => hput ▸ hmeans, fun hput => hput.unique hmeans⟩
  · intro q q' u hq hq' heq
    rw [hpass, fallbackText_of_quotes hq hq' heq]

/-- Quotes of the same kind inside the fallback, and white space of several kinds around it. -/
theorem pass_fallback_apostrophe :
    global.Misses sampleContext "global.site.u".toList ∧ FallbackMeans " 'it's' ".toList "it's".toList ∧
      global.pass sampleContext "a \x7bglobal.site.u\tor\u00a0 'it's' \x7d b".toList = "a it's b".toList := by
  have hmiss : global.Misses sampleContext "global.site.u".toList :=
    ⟨"site".toList, some "u".toList, by decide, by decide, by decide, by decide, by decide +kernel⟩
  have hbefore : "\t".toList ≠ [] ∧ IsGap "\t".toList := by decide +kernel
  have hbehind : "\u00a0".toList ≠ [] ∧ IsGap "\u00a0".toList := by decide +kernel
  have hne : " 'it's' ".toList ≠ [] := by decide
  have hraw : '\x7d' ∉ " 'it's' ".toList := by decide
  have hpre : '\x7b' ∉ "a ".toList := by decide
  have hmeans : FallbackMeans " 'it's' ".toList "it's".toList :=
    .quoted (q := '\'') (by decide) (by decide +kernel)
  have hmixed : ¬ HasMixedQuotes " 'it's' ".toList := by
    have hput : fallbackText " 'it's' ".toList = "it's".toList := by decide +kernel
    exact fallbackMeans_iff.1 (hput ▸ hmeans)
  obtain ⟨⟨u, hall, hiff⟩, -⟩ := pass_fallback_iff hmiss hbefore hbehind hne hraw hpre " b".toList
  obtain rfl := (hall _).1 hmeans
  refine ⟨hmiss, hmeans, (hiff.2 hmixed).trans ?_⟩
  decide +kernel

end Dialect

/-- Without its quotes of two kinds, this fallback is not what it means. -/
theorem sweepBare_mixedQuotes :
    FallbackMeans "'a\"".toList "'a\"".toList ∧ sweepBare "\x7bx or 'a\"\x7d".toList = "a".toList := by
  have htrim : Text.trim "'a\"".toList = '\'' :: ['a', '"'] := by decide +kernel
  have hmeans : FallbackMeans "'a\"".toList (Text.trim "'a\"".toList) := by
    refine .plain (by rw [htrim]; decide) fun q u _ heq => ?_
    obtain ⟨rfl, hbehind⟩ := List.cons.inj (htrim.symm.trans heq)
    have hlast : ['a', '"'].getLast? = some '\'' := by rw [hbehind, List.getLast?_concat]
    exact absurd hlast (by decide)
  rw [htrim] at hmeans
  exact ⟨hmeans, by decide +kernel⟩

end Pagewright
