import Pagewright.Condition.Block
import Pagewright.Proofs.Condition.Alike
import Pagewright.Proofs.Condition.Scan
import Pagewright.Proofs.Json.Escapes
import Pagewright.Proofs.Template.Placeholder
import Pagewright.Proofs.Text.Substitution

/-!
# A string in the place of a placeholder

What stands for a string in a condition is the string in quotes, and the quotes are read back as one token
that holds the string (`Token.scanFrom_quote`), whatever characters it has: the writer escapes quotes,
backslashes and control characters, and the reader of conditions knows all of its escapes
(`Token.quotedTail_escapeChar`). The quotes are a seam on both sides, so the tokens in front of the
placeholder and behind it stay what they are (`scan_inlinePlaceholders_string`), and no string changes the
shape of a condition.

A placeholder has at least one character in its path. One with an empty path is none, even if the scope has
a field with an empty name, and its braces are read as signs (`scan_inlinePlaceholders_emptyPath`).
-/

namespace Pagewright.Condition

variable {c : Char} {n start : Nat} {r s t w z : Text}

namespace Token

/-! ## Escapes -/

/-- Is the text an escape that is read as the character? -/
def isEscapeOf (c : Char) : Text → Bool
  | ['\\', e] => e ≠ 'u' && escaped e = c
  | ['\\', 'u', a, b, d, e] => charOfHex? [a, b, d, e] = some c
  | _ => false

private theorem isEscapeOf_control : ∀ k < 32,
    isEscapeOf (Char.ofNat k) (Json.escapeChar (Char.ofNat k)) := by
  decide

/-- The reader of conditions knows all escapes that are written in JSON. -/
theorem isEscapeOf_escapeChar (h : ¬ Json.isPlain c) : isEscapeOf c (Json.escapeChar c) := by
  rcases Json.not_isPlain_cases h with rfl | rfl | ⟨k, hk, rfl⟩
  · decide
  · decide
  · exact isEscapeOf_control k hk

theorem quotedTail_of_isEscapeOf (h : isEscapeOf c w) (start n : Nat) (r : Text) : ∃ m,
    quotedTail '"' start n (w ++ r) =
      (quotedTail '"' start m r).map fun (s, rest) => (c :: s, rest) := by
  unfold isEscapeOf at h
  split at h
  · next e =>
    simp only [ne_eq, decide_not, Bool.and_eq_true, Bool.not_eq_true', decide_eq_false_iff_not,
      decide_eq_true_eq] at h
    obtain ⟨hu, rfl⟩ := h
    exact ⟨_, quotedTail_escape (by decide) hu⟩
  · exact ⟨_, quotedTail_unicode (by decide) (of_decide_eq_true h)⟩
  · cases h

/-- What is written for a character in quotes is read as that character. -/
theorem quotedTail_escapeChar (c : Char) (start n : Nat) (r : Text) : ∃ m,
    quotedTail '"' start n (Json.escapeChar c ++ r) =
      (quotedTail '"' start m r).map fun (s, rest) => (c :: s, rest) := by
  by_cases h : Json.isPlain c
  · rw [Json.escapeChar_of_isPlain h]
    simp only [Json.isPlain, Bool.and_eq_true, decide_eq_true_eq] at h
    exact ⟨_, quotedTail_cons h.1.1 h.1.2⟩
  · exact quotedTail_of_isEscapeOf (isEscapeOf_escapeChar h) start n r

/-- A text as it stands in quotes is read back. -/
theorem quotedTail_flatMap (s : Text) (start n : Nat) (r : Text) :
    quotedTail '"' start n (s.flatMap Json.escapeChar ++ '"' :: r) = .ok (s, r) := by
  induction s generalizing n with
  | nil => exact quotedTail_quote
  | cons c s ih =>
    obtain ⟨m, hm⟩ := quotedTail_escapeChar c start n (s.flatMap Json.escapeChar ++ '"' :: r)
    rw [List.flatMap_cons, List.append_assoc, hm, ih]
    rfl

/-- A text in quotes is one token, and what follows it is read for itself. -/
theorem scanFrom_quote (n : Nat) (s z : Text) :
    scanFrom n (Json.quote s ++ z) =
      (scanFrom (n + Text.size (Json.quote s)) z).map (string s :: ·) := by
  have hnext : next n '"' (s.flatMap Json.escapeChar ++ '"' :: z) = .ok (string s, z) := by
    have h : next n '"' (s.flatMap Json.escapeChar ++ '"' :: z) =
        (quotedTail '"' n (n + 1) (s.flatMap Json.escapeChar ++ '"' :: z)).map
          fun (s, rest) => (string s, rest) := rfl
    rw [h, quotedTail_flatMap]
    rfl
  have hquote : Json.quote s ++ z = '"' :: (s.flatMap Json.escapeChar ++ '"' :: z) := by
    simp [Json.quote]
  have hread : n + Text.size ('"' :: (s.flatMap Json.escapeChar ++ '"' :: z)) - Text.size z =
      n + Text.size (Json.quote s) := by
    rw [← hquote, Text.size_append]
    omega
  rw [hquote, scanFrom_next (by decide) hnext, hread]

end Token

/-! ## Placeholders in a condition -/

section Hole

variable {scopeName path pre post : Text} {scope : Fields} {v : Json}

/-- The placeholder of a path in a scope. -/
def hole (scopeName path : Text) : Text := Placeholder.scopeOpening scopeName ++ path ++ ['\x7d']

/-- A placeholder is read as its path, with nothing but the rest behind it. -/
theorem parse?_hole (hne : path ≠ []) (hpath : ∀ c ∈ path, Placeholder.isPathChar c) (z : Text) :
    Placeholder.parse? (Placeholder.scopeOpening scopeName) Placeholder.isPathChar
      (hole scopeName path ++ z) = some (path, none, z) := by
  have htext : hole scopeName path ++ z = Placeholder.scopeOpening scopeName ++ (path ++ '\x7d' :: z) := by
    simp [hole]
  rw [htext]
  exact Placeholder.parse?_path hne hpath rfl

/-- No placeholder begins in a text without an opening brace. -/
theorem parse?_of_suffix (scopeName : Text) (h : '\x7b' ∉ t) (hs : s <:+ t) (hn : s ≠ []) (z : Text) :
    Placeholder.parse? (Placeholder.scopeOpening scopeName) Placeholder.isPathChar (s ++ z) = none := by
  obtain ⟨c, s, rfl⟩ := List.exists_cons_of_ne_nil hn
  apply Placeholder.parse?_cons_of_ne
  rintro rfl
  exact h (hs.subset List.mem_cons_self)

/-- A condition without a placeholder stays as it is. -/
theorem inlinePlaceholders_of_notMem (h : '\x7b' ∉ t) (scopeName : Text) (scope : Fields) :
    inlinePlaceholders scopeName scope t = t := by
  refine Text.substitute_of_free fun s hs hn => ?_
  have hnone := parse?_of_suffix scopeName h hs hn []
  rw [List.append_nil] at hnone
  simp only [hnone]

/-- The literal of the value at the path takes the place of the only placeholder. -/
theorem inlinePlaceholders_hole (hne : path ≠ []) (hpath : ∀ c ∈ path, Placeholder.isPathChar c)
    (hv : scope.lookup? path = some v) (hpre : '\x7b' ∉ pre) (hpost : '\x7b' ∉ post) :
    inlinePlaceholders scopeName scope (pre ++ hole scopeName path ++ post) =
      pre ++ literal v ++ post := by
  have hhole : hole scopeName path ++ post =
      '\x7b' :: (scopeName ++ ['.'] ++ path ++ ['\x7d'] ++ post) := rfl
  unfold inlinePlaceholders
  rw [List.append_assoc pre, List.append_assoc pre, Text.substitute_append_left, hhole]
  · refine congrArg (pre ++ ·) ((Text.substitute_cons_some (?_ : _ = some (literal v, post)) ?_).trans ?_)
    · rw [← hhole, parse?_hole hne hpath]
      simp only [hv]
    · rw [List.length_append]
      omega
    · exact congrArg _ (inlinePlaceholders_of_notMem hpost scopeName scope)
  · intro s hs hn
    simp only [parse?_of_suffix scopeName hpre hs hn]

/-! ## Strings stay strings -/

/-- The same text, or one given text in the place of another. -/
def Swapped (s s' a b : Text) : Prop := a = b ∨ (a = s ∧ b = s')

private theorem scan_literal {ts : List Token} (hts : Token.scan pre = .ok ts) (s : Text) :
    Token.scan (pre ++ literal (.string s) ++ post) =
      (Token.scanFrom (Text.size pre + Text.size (Json.quote s)) post).map (ts ++ .string s :: ·) := by
  have hseam : Token.Seam (Json.quote s ++ post) := Token.seam_cons.2 (by decide)
  have hliteral : literal (.string s) = Json.quote s := by
    rw [literal, Json.compact]
  rw [hliteral, List.append_assoc, Token.scan, Token.scanFrom_append hseam hts, Token.scanFrom_quote,
    Nat.zero_add]
  cases Token.scanFrom (Text.size pre + Text.size (Json.quote s)) post <;> rfl

/-- A string at the path of a placeholder is one token between those in front of it and those behind it,
and a condition that goes wrong behind it goes wrong. Another string there gives the same tokens and the
same tree, up to the string. -/
theorem scan_inlinePlaceholders_string {ts : List Token} (hne : path ≠ [])
    (hpath : ∀ c ∈ path, Placeholder.isPathChar c) (hs : scope.lookup? path = some (.string s))
    (hpre : '\x7b' ∉ pre) (hpost : '\x7b' ∉ post) (hts : Token.scan pre = .ok ts) :
    let condition := pre ++ hole scopeName path ++ post
    let tokens := fun scope => Token.scan (inlinePlaceholders scopeName scope condition)
    (∀ us, Token.scan post = .ok us → tokens scope = .ok (ts ++ .string s :: us)) ∧
      ((∃ e, Token.scan post = .error e) → ∃ e, tokens scope = .error e) ∧
      ∀ scope' s', Fields.lookup? scope' path = some (.string s') →
        SameOutcome (List.Forall₂ (Token.Alike (Swapped s s'))) (tokens scope) (tokens scope') ∧
        SameOutcome (Expr.Alike (Swapped s s')) ((tokens scope).bind Expr.ofTokens)
          ((tokens scope').bind Expr.ofTokens) := by
  intro condition tokens
  have hok : ∀ us, Token.scan post = .ok us → ∀ scope' s',
      Fields.lookup? scope' path = some (.string s') → tokens scope' = .ok (ts ++ .string s' :: us) := by
    intro us hus scope' s' hs'
    show Token.scan (inlinePlaceholders scopeName scope' condition) = _
    rw [inlinePlaceholders_hole hne hpath hs' hpre hpost, scan_literal hts, Token.scanFrom_eq_ok hus]
    rfl
  have herror : (∃ e, Token.scan post = .error e) → ∀ scope' s',
      Fields.lookup? scope' path = some (.string s') → ∃ e, tokens scope' = .error e := by
    rintro ⟨e, he⟩ scope' s' hs'
    obtain ⟨e', he'⟩ := Token.scanFrom_eq_error he (Text.size pre + Text.size (Json.quote s'))
    refine ⟨e', ?_⟩
    show Token.scan (inlinePlaceholders scopeName scope' condition) = _
    rw [inlinePlaceholders_hole hne hpath hs' hpre hpost, scan_literal hts, he']
    rfl
  refine ⟨fun us hus => hok us hus scope s hs, fun he => herror he scope s hs, fun scope' s' hs' => ?_⟩
  have hR : ∀ t, Swapped s s' t t := fun t => .inl rfl
  have hsame : ∀ us : List Token, List.Forall₂ (Token.Alike (Swapped s s')) us us := fun us =>
    List.forall₂_same.2 fun t _ => .refl t
  cases hpostTokens : Token.scan post with
  | ok us =>
    have halike : List.Forall₂ (Token.Alike (Swapped s s')) (ts ++ .string s :: us)
        (ts ++ .string s' :: us) :=
      List.rel_append (hsame ts) (.cons (.string (.inr ⟨rfl, rfl⟩)) (hsame us))
    rw [hok us hpostTokens scope s hs, hok us hpostTokens scope' s' hs']
    exact ⟨.ok halike, Expr.Alike.ofTokens hR halike⟩
  | error e =>
    obtain ⟨e₁, h₁⟩ := herror ⟨e, hpostTokens⟩ scope s hs
    obtain ⟨e₂, h₂⟩ := herror ⟨e, hpostTokens⟩ scope' s' hs'
    rw [h₁, h₂]
    exact ⟨.error _ _, .error _ _⟩

/-- A string with quotes and an operator in it, on the left of a comparison. -/
theorem scan_inlinePlaceholders_quotes :
    Token.scan (inlinePlaceholders ['a'] [(['n'], .string "\" || \"".toList)]
      ("!".toList ++ hole ['a'] ['n'] ++ [])) = .ok [.not, .string "\" || \"".toList] := by
  have hpre : Token.scan "!".toList = .ok [.not] := by
    rw [Token.scan, show "!".toList = ['!'] from rfl,
      Token.scanFrom_next (c := '!') (by decide) rfl, Token.scanFrom_nil]
    rfl
  exact (scan_inlinePlaceholders_string (by decide) (by decide) rfl (by decide) (by decide) hpre).1 []
    Token.scanFrom_nil

/-- A field with an empty name has no placeholder: its braces are read as signs. -/
theorem scan_inlinePlaceholders_emptyPath :
    Fields.lookup? [([], .string ['s'])] [] = some (.string ['s']) ∧
      (∀ c ∈ ([] : Text), Placeholder.isPathChar c) ∧ Token.scan [] = .ok [] ∧
      Token.scan (inlinePlaceholders ['a'] [([], .string ['s'])] ([] ++ hole ['a'] [] ++ [])) ≠
        .ok ([] ++ .string ['s'] :: []) := by
  have hsame : inlinePlaceholders ['a'] [([], .string ['s'])] ([] ++ hole ['a'] [] ++ []) =
      '\x7b' :: "a.\x7d".toList := Text.substitute_of_free (by decide)
  have hscan : Token.scan ('\x7b' :: "a.\x7d".toList) =
      (Token.scanFrom 1 "a.\x7d".toList).map (.lbrace :: ·) :=
    Token.scanFrom_next (c := '\x7b') (by decide) rfl
  refine ⟨rfl, by simp, Token.scanFrom_nil, ?_⟩
  rw [hsame, hscan]
  cases Token.scanFrom 1 "a.\x7d".toList with
  | ok us => simp [Except.map]
  | error e => simp [Except.map]

end Hole

end Pagewright.Condition
