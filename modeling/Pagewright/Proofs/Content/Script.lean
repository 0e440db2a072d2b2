import Pagewright.Proofs.Content.Data
import Pagewright.Proofs.Json.Escapes

/-!
# Reading the script in the head

A browser reads the script with the data of a document in two steps: first the literals between the single
quotes (`Site.literal?`), and then what these stand for as JSON (`Site.scriptData?`).

The literals undo one layer of escapes. JSON text has escapes of its own, and only its apostrophes are
protected from the first step; so that step takes each string out of its escapes, and the second one finds it
bare. `scriptData?_headScript_iff` says which data comes through: that which has nothing to escape.
-/

namespace Pagewright.Site

open Json

/-! ## Literals -/

private theorem length_lt_of_hexFour? {n : Nat} {t r : Text} (h : hexFour? t = some (n, r)) :
    r.length < t.length := by
  unfold hexFour? at h
  split at h
  · obtain ⟨m, -, hm⟩ := Option.map_eq_some_iff.1 h
    rw [Prod.mk.injEq] at hm
    rw [← hm.2]
    simp only [List.length_cons]
    omega
  · cases h

private theorem length_lt_of_unicodeEscape? {c : Char} {t r : Text} (h : unicodeEscape? t = some (c, r)) :
    r.length < t.length := by
  obtain ⟨⟨n, r1⟩, hn, h⟩ := Option.bind_eq_some_iff.1 h
  have h1 := length_lt_of_hexFour? hn
  simp only at h
  split at h
  · split at h
    · next r2 =>
      obtain ⟨⟨m, r3⟩, hm, h⟩ := Option.bind_eq_some_iff.1 h
      have h2 := length_lt_of_hexFour? hm
      simp only [List.length_cons] at h1
      simp only at h
      split at h
      · rw [Option.some.injEq, Prod.mk.injEq] at h
        rw [← h.2]
        omega
      · cases h
    · cases h
  · split at h
    · cases h
    · rw [Option.some.injEq, Prod.mk.injEq] at h
      rw [← h.2]
      exact h1

/-- The character that a single one behind a backslash stands for. -/
def literalEscape? (c : Char) : Option Char :=
  if c = '\'' then some c else shortEscape? c

/-- What a literal in single quotes stands for, the first quote already read, and the rest. A line break ends
no literal and stands in none. -/
def literal? (t : Text) : Option (Text × Text) :=
  match t with
  | [] => none
  | '\'' :: r => some ([], r)
  | '\\' :: 'u' :: r =>
    match _h : unicodeEscape? r with
    | some (c, r') => (literal? r').map (Prod.map (c :: ·) id)
    | none => none
  | '\\' :: e :: r => (literalEscape? e).bind fun c => (literal? r).map (Prod.map (c :: ·) id)
  | c :: r =>
    if c = '\\' || c = '\n' || c = '\r' then none else (literal? r).map (Prod.map (c :: ·) id)
termination_by t.length
decreasing_by
  · have := length_lt_of_unicodeEscape? _h
    simp only [List.length_cons]
    omega
  · simp only [List.length_cons]
    omega
  · exact Nat.lt_succ_self _

/-- The values that the script in the head of a page gives to other scripts. -/
def scriptData? (t : Text) : Option (Json × Json) := do
  let t ← Text.after? "<script>window.toc = JSON.parse('".toList t
  let (toc, t) ← literal? t
  let t ← Text.after? "); window.frontmatter=JSON.parse('".toList t
  let (frontmatter, t) ← literal? t
  if t = ");</script>".toList then return (← parse? toc, ← parse? frontmatter) else none

variable {c e : Char} {r s u w : Text} {ss : List Text}

theorem literal?_quote (r : Text) : literal? ('\'' :: r) = some ([], r) := by
  rw [literal?]

/-- A literal begins with a text if this stands for one of its own, whatever follows. -/
def Stands (t u : Text) : Prop := ∀ r, literal? (t ++ r) = (literal? r).map (Prod.map (u ++ ·) id)

theorem Stands.nil : Stands [] [] := by
  intro r
  have hid : (Prod.map (fun s : Text => [] ++ s) id : Text × Text → Text × Text) = id := by
    funext p
    rfl
  rw [List.nil_append, hid, Option.map_id]
  rfl

theorem Stands.append {t t' u' : Text} (h : Stands t u) (h' : Stands t' u') : Stands (t ++ t') (u ++ u') := by
  intro r
  rw [List.append_assoc, h, h', Option.map_map]
  congr 1
  funext p
  show (u ++ (u' ++ p.1), p.2) = (u ++ u' ++ p.1, p.2)
  rw [List.append_assoc]

theorem stands_singleton (h : c ≠ '\'' ∧ c ≠ '\\' ∧ c ≠ '\n' ∧ c ≠ '\r') : Stands [c] [c] := by
  intro r
  rw [List.singleton_append, literal?.eq_def]
  split
  all_goals simp_all

theorem stands_escape (hu : e ≠ 'u') (h : literalEscape? e = some c) : Stands ['\\', e] [c] := by
  intro r
  rw [List.cons_append, List.singleton_append, literal?]
  · rw [h]
    rfl
  · exact hu

theorem stands_unicode {a : Text} (h : ∀ r, unicodeEscape? (a ++ r) = some (c, r)) :
    Stands ('\\' :: 'u' :: a) [c] := by
  intro r
  rw [List.cons_append, List.cons_append, literal?]
  split
  · next heq =>
    rw [h, Option.some.injEq, Prod.mk.injEq] at heq
    obtain ⟨rfl, rfl⟩ := heq
    rfl
  · next heq =>
    rw [h] at heq
    cases heq

/-! ## JSON in a literal -/

/-- A character as it stands between single quotes. -/
private def protect (c : Char) : Text := if c = '\'' then ['\\', '\''] else [c]

private theorem singleQuoted_eq_flatMap (v : Json) : singleQuoted v = v.compact.flatMap protect := by
  exact Text.replaceAll_singleton '\'' ['\\', '\''] v.compact

private theorem protect_of_ne (h : c ≠ '\'') : protect c = [c] := if_neg h

/-- A control character is written with one letter or with four digits. -/
private theorem escapeChar_control : ∀ n < 32,
    (escapeChar (Char.ofNat n)).flatMap protect = escapeChar (Char.ofNat n) ∧
      ((∃ e ∈ "ntrbf".toList, escapeChar (Char.ofNat n) = ['\\', e] ∧ e ≠ 'u' ∧
          literalEscape? e = some (Char.ofNat n)) ∨
        escapeChar (Char.ofNat n) = '\\' :: 'u' :: '0' :: '0' :: hexPair n ∧
          Text.natOfDigits? 16 ('0' :: '0' :: hexPair n) = some n) := by
  decide

private theorem unicodeEscape?_hexPair {n : Nat} (hn : n < 32)
    (h : Text.natOfDigits? 16 ('0' :: '0' :: hexPair n) = some n) (r : Text) :
    unicodeEscape? (('0' :: '0' :: hexPair n) ++ r) = some (Char.ofNat n, r) := by
  have hfour : hexFour? (('0' :: '0' :: hexPair n) ++ r) = some (n, r) := by
    show (Text.natOfDigits? 16 ('0' :: '0' :: hexPair n)).map (fun n => (n, r)) = some (n, r)
    rw [h]
    rfl
  unfold unicodeEscape?
  rw [hfour]
  have h1 : ¬ 0xD800 ≤ n := by omega
  have h2 : ¬ 0xDC00 ≤ n := by omega
  simp [h1, h2]

/-- A literal undoes the escapes of JSON, each character apart. -/
theorem stands_escapeChar (c : Char) : Stands ((escapeChar c).flatMap protect) [c] := by
  by_cases hc : isPlain c
  · rw [escapeChar_of_isPlain hc, List.flatMap_singleton]
    by_cases hq : c = '\''
    · subst hq
      exact stands_escape (by decide) (by decide)
    · rw [protect_of_ne hq]
      simp only [isPlain, Bool.and_eq_true, decide_eq_true_eq] at hc
      refine stands_singleton ⟨hq, hc.1.2, fun h => ?_, fun h => ?_⟩
      · rw [h] at hc
        exact absurd hc.2 (by decide)
      · rw [h] at hc
        exact absurd hc.2 (by decide)
  · rcases not_isPlain_cases hc with rfl | rfl | ⟨n, hn, rfl⟩
    · exact stands_escape (by decide) (by decide)
    · exact stands_escape (by decide) (by decide)
    · obtain ⟨hprotect, hcases⟩ := escapeChar_control n hn
      rw [hprotect]
      rcases hcases with ⟨e, -, heq, hu, hlit⟩ | ⟨heq, hnum⟩
      · rw [heq]
        exact stands_escape hu hlit
      · rw [heq]
        exact stands_unicode (unicodeEscape?_hexPair hn hnum)

theorem stands_string (s : Text) : Stands ((s.flatMap escapeChar).flatMap protect) s := by
  induction s with
  | nil => exact Stands.nil
  | cons c s ih =>
    rw [List.flatMap_cons, List.flatMap_append]
    exact (stands_escapeChar c).append ih

private theorem bareChars_facts : ∀ c ∈ bareChars, (c ≠ '\'' ∧ c ≠ '\\' ∧ c ≠ '\n' ∧ c ≠ '\r') ∧
    escapeCost [c] = 0 := by
  decide

/-- A literal takes each string out of its escapes and leaves all else as it is. -/
theorem exists_stands_of_written (h : Written w ss) :
    ∃ u, Stands (w.flatMap protect) u ∧ escapeCost u = (ss.map escapeCost).sum ∧
      ((∀ s ∈ ss, ∀ c ∈ s, isPlain c) → u = w) := by
  induction h with
  | nil => exact ⟨[], Stands.nil, rfl, fun _ => rfl⟩
  | @bare c w ss hc _ ih =>
    obtain ⟨u, hu, hcost, hplain⟩ := ih
    obtain ⟨hne, hzero⟩ := bareChars_facts c hc
    refine ⟨c :: u, ?_, ?_, ?_⟩
    · rw [List.flatMap_cons, protect_of_ne hne.1]
      exact (stands_singleton hne).append hu
    · rw [escapeCost_cons, hzero, Nat.zero_add, hcost]
    · intro hss
      rw [hplain hss]
  | @quoted w ss s _ ih =>
    obtain ⟨u, hu, hcost, hplain⟩ := ih
    have hquote : Stands ['"'] ['"'] := stands_singleton (by decide)
    refine ⟨['"'] ++ s ++ ['"'] ++ u, ?_, ?_, ?_⟩
    · have heq : (Json.quote s ++ w).flatMap protect =
          ['"'] ++ (s.flatMap escapeChar).flatMap protect ++ ['"'] ++ w.flatMap protect := by
        simp [Json.quote, protect]
      rw [heq]
      exact ((hquote.append (stands_string s)).append hquote).append hu
    · have h0 : escapeCost ['"'] = 0 := rfl
      simp only [escapeCost_append, h0, hcost, List.map_cons, List.sum_cons]
      omega
    · intro hss
      rw [List.forall_mem_cons] at hss
      have hs : s.flatMap escapeChar = s := by
        rw [List.flatMap_congr fun c hc => escapeChar_of_isPlain (hss.1 c hc), List.flatMap_singleton']
      rw [hplain hss.2, Json.quote, hs]
      simp

/-! ## The data -/

variable {toc : List Markdown.TocEntry} {fields : Fields}

private theorem literal?_of_stands (h : Stands (w.flatMap protect) u) (r : Text) :
    literal? (w.flatMap protect ++ '\'' :: r) = some (u, r) := by
  rw [h, literal?_quote]
  show some (u ++ [], r) = some (u, r)
  rw [List.append_nil]

/-- The texts that are read as JSON have the strings of the data out of their escapes. -/
theorem scriptData?_headScript (toc : List Markdown.TocEntry) (fields : Fields) :
    ∃ u v, scriptData? (headScript toc fields) = (do return (← parse? u, ← parse? v)) ∧
      escapeCost u + escapeCost v = ((dataStrings toc fields).map escapeCost).sum ∧
      ((∀ s ∈ dataStrings toc fields, ∀ c ∈ s, isPlain c) →
        u = (tocJson toc).compact ∧ v = (Json.object fields).compact) := by
  obtain ⟨u, hu, hucost, huplain⟩ := exists_stands_of_written (written_compact (tocJson toc))
  obtain ⟨v, hv, hvcost, hvplain⟩ := exists_stands_of_written (written_compact (.object fields))
  refine ⟨u, v, ?_, ?_, ?_⟩
  · have heq : headScript toc fields = "<script>window.toc = JSON.parse('".toList ++
        ((tocJson toc).compact.flatMap protect ++ '\'' ::
          ("); window.frontmatter=JSON.parse('".toList ++
            ((Json.object fields).compact.flatMap protect ++ '\'' :: ");</script>".toList))) := by
      unfold headScript
      rw [singleQuoted_eq_flatMap, singleQuoted_eq_flatMap]
      simp
    rw [heq]
    unfold scriptData?
    simp only [Text.after?_append_self, Option.bind_eq_bind, Option.bind_some, literal?_of_stands hu,
      literal?_of_stands hv, ↓reduceIte]
  · rw [hucost, hvcost, dataStrings, List.map_append, List.sum_append]
    rfl
  · intro h
    rw [dataStrings, List.forall_mem_append] at h
    exact ⟨huplain h.1, hvplain h.2⟩

/-- A table of contents as it is read back: the fields of its entries are in the order of their names. -/
def tocData (toc : List Markdown.TocEntry) : Json :=
  .array (toc.map fun e => .object (Fields.ofList
    [("content".toList, .string e.content), ("slug".toList, .string e.slug), ("lvl".toList, ofNat e.level),
      ("i".toList, ofNat e.position), ("seen".toList, ofNat e.seen)]))

/-- The order of fields does not change what the strings cost. -/
theorem stringsCost_tocData (toc : List Markdown.TocEntry) :
    stringsCost (tocData toc).strings = stringsCost (tocJson toc).strings := by
  unfold tocData tocJson
  rw [strings, strings]
  induction toc with
  | nil => rfl
  | cons e toc ih =>
    rw [List.map_cons, List.map_cons, stringsOfItems, stringsOfItems, stringsCost_append, stringsCost_append,
      ih]
    congr 1
    have hsorted : Fields.ofList [("content".toList, .string e.content), ("slug".toList, .string e.slug),
        ("lvl".toList, ofNat e.level), ("i".toList, ofNat e.position), ("seen".toList, ofNat e.seen)] =
          [("content".toList, .string e.content), ("i".toList, ofNat e.position),
            ("lvl".toList, ofNat e.level), ("seen".toList, ofNat e.seen), ("slug".toList, .string e.slug)] :=
      rfl
    rw [hsorted]
    simp only [Markdown.TocEntry.toJson, ofNat, strings, stringsOfFields, stringsCost_append, stringsCost_cons,
      stringsCost_nil, List.append_nil]
    omega

/-- Scripts get the data of a document just where there is nothing in it to escape: no quote, no backslash and
no control character. It is taken for granted that JSON texts can be read back. -/
theorem scriptData?_headScript_iff (htoc : parse? (tocJson toc).compact = some (tocData toc))
    (hfields : parse? (Json.object fields).compact = some (.object fields)) :
    scriptData? (headScript toc fields) = some (tocData toc, .object fields) ↔
      ∀ s ∈ dataStrings toc fields, ∀ c ∈ s, isPlain c := by
  obtain ⟨u, v, hread, hcost, hplain⟩ := scriptData?_headScript toc fields
  rw [hread]
  constructor
  · intro h s hs c hc
    by_contra hp
    obtain ⟨x, hx, h⟩ := Option.bind_eq_some_iff.1 h
    obtain ⟨y, hy, h⟩ := Option.bind_eq_some_iff.1 h
    rw [Option.pure_def, Option.some.injEq, Prod.mk.injEq] at h
    obtain ⟨rfl, rfl⟩ := h
    -- the texts that are read have the strings bare, and a bare string is too cheap to be read
    have h1 := stringsCost_le_of_parse? hx
    have h2 := stringsCost_le_of_parse? hy
    have h3 := sum_escapeCost_lt hs hc hp
    rw [stringsCost_tocData] at h1
    rw [← hcost, dataStrings, stringsCost_append] at h3
    rw [strings] at h2
    omega
  · intro h
    obtain ⟨rfl, rfl⟩ := hplain h
    rw [htoc, hfields]
    rfl

/-- An apostrophe comes through. -/
theorem scriptData?_headScript_apostrophe :
    scriptData? (headScript [⟨"It's".toList, "it's".toList, 1, 0, 0⟩] [("t".toList, .string "a'b".toList)]) =
      some (tocData [⟨"It's".toList, "it's".toList, 1, 0, 0⟩], .object [("t".toList, .string "a'b".toList)]) :=
  (scriptData?_headScript_iff rfl rfl).2 (by decide)

/-- A quote ends the string in which it stands. -/
theorem scriptData?_headScript_quote :
    parse? (tocJson []).compact = some (tocData []) ∧
      parse? (Json.object [("t".toList, .string "a\"b".toList)]).compact =
        some (.object [("t".toList, .string "a\"b".toList)]) ∧
      scriptData? (headScript [] [("t".toList, .string "a\"b".toList)]) = none :=
  ⟨rfl, rfl, Option.isNone_iff_eq_none.1 (by decide +kernel)⟩

end Pagewright.Site
