import Pagewright.Proofs.Condition.Grammar

/-!
# Trees written out

A tree that was read can be written with parentheses around every construct (`Expr.parenthesized`), so that nothing
depends on how tightly operators bind. That is read as the same tree again: such a row of tokens has a derivation as
a primary expression (`derives_parenthesized`), as long as no name in the tree is one of the words that stand for
values. A derivation never gives such a name (`Derives.isNamed`). Together with the grammar this says what the reader
of conditions does (`ofTokens_iff_derives`).
-/

namespace Pagewright.Condition

variable {c : Category} {ts us : List Token} {e : Expr} {es : List Expr} {fields : List (Text × Expr)} {name k : Text}

/-! ## Writing -/

mutual

/-- The tokens of a tree with parentheses around every construct. -/
def Expr.parenthesized : Expr → List Token
  | .undefined => [.ident "undefined".toList]
  | .null => [.ident "null".toList]
  | .bool true => [.ident "true".toList]
  | .bool false => [.ident "false".toList]
  | .string t => [.string t]
  | .number x => [.number x]
  | .ident name => [.ident name]
  | .member target name => .lparen :: (target.parenthesized ++ [.dot, .ident name, .rparen])
  | .index target key =>
    .lparen :: (target.parenthesized ++ .lbracket :: (key.parenthesized ++ [.rbracket, .rparen]))
  | .not e => .lparen :: .not :: (e.parenthesized ++ [.rparen])
  | .neg e => .lparen :: .minus :: (e.parenthesized ++ [.rparen])
  | .binary o left right => .lparen :: (left.parenthesized ++ .operator o :: (right.parenthesized ++ [.rparen]))
  | .array [] => [.lbracket, .rbracket]
  | .array (e :: es) => .lbracket :: (e.parenthesized ++ (furtherItems es ++ [.rbracket]))
  | .object [] => [.lbrace, .rbrace]
  | .object ((k, e) :: fields) =>
    .lbrace :: .string k :: .colon :: (e.parenthesized ++ (furtherFields fields ++ [.rbrace]))

/-- The items of an array behind the first one. -/
def furtherItems : List Expr → List Token
  | [] => []
  | e :: es => .comma :: (e.parenthesized ++ furtherItems es)

/-- The fields of an object behind the first one; names of fields are quoted. -/
def furtherFields : List (Text × Expr) → List Token
  | [] => []
  | (k, e) :: fields => .comma :: .string k :: .colon :: (e.parenthesized ++ furtherFields fields)

end

/-! ## Names -/

mutual

/-- No name in the tree is a word that stands for a value. -/
def Expr.IsNamed : Expr → Prop
  | .undefined | .null | .bool _ | .string _ | .number _ => True
  | .ident name => name ∉ wordValues.map Prod.fst
  | .member target _ => target.IsNamed
  | .index target key => target.IsNamed ∧ key.IsNamed
  | .not e | .neg e => e.IsNamed
  | .binary _ left right => left.IsNamed ∧ right.IsNamed
  | .array items => IsNamedItems items
  | .object fields => IsNamedFields fields

/-- No name in the items is a word that stands for a value. -/
def IsNamedItems : List Expr → Prop
  | [] => True
  | e :: es => e.IsNamed ∧ IsNamedItems es

/-- No name in the fields is a word that stands for a value. -/
def IsNamedFields : List (Text × Expr) → Prop
  | [] => True
  | (_, e) :: fields => e.IsNamed ∧ IsNamedFields fields

end

theorem isNamedItems_append (h : IsNamedItems es) (he : e.IsNamed) : IsNamedItems (es ++ [e]) := by
  induction es with
  | nil => exact ⟨he, trivial⟩
  | cons first es ih => exact ⟨h.1, ih h.2⟩

theorem isNamedFields_append (h : IsNamedFields fields) (he : e.IsNamed) : IsNamedFields (fields ++ [(k, e)]) := by
  induction fields with
  | nil => exact ⟨he, trivial⟩
  | cons first fields ih => exact ⟨h.1, ih h.2⟩

theorem isNamed_of_mem (h : (name, e) ∈ wordValues) : e.IsNamed := by
  simp only [wordValues, List.mem_cons, Prod.mk.injEq, List.not_mem_nil, or_false] at h
  rcases h with ⟨-, rfl⟩ | ⟨-, rfl⟩ | ⟨-, rfl⟩ | ⟨-, rfl⟩ <;> trivial

/-- The grammar gives words their values. -/
theorem Derives.isNamed (h : Derives c ts e) : e.IsNamed := by
  induction h with
  | single _ _ ih | not _ ih | neg _ ih | member _ _ ih | group _ ih | array _ ih | object _ ih => exact ih
  | chain _ _ _ _ ihl ihr => exact ⟨ihl, ihr⟩
  | index _ _ ih ihk => exact ⟨ih, ihk⟩
  | number | string | noItems | noFields => trivial
  | word h => exact isNamed_of_mem h
  | ident h => exact h
  | item _ ih | field _ _ ih => exact ⟨ih, trivial⟩
  | items _ _ ih ihe => exact isNamedItems_append ih ihe
  | fields _ _ _ ih ihe => exact isNamedFields_append ih ihe

/-! ## Reading -/

/-- A primary expression is an expression of every category around it. -/
theorem Derives.of_primary (h : Derives .primary ts e) (n : Nat) : Derives (.ofLevel n) ts e := by
  have hunary : Derives (.ofLevel 4) ts e := .single rfl (.single rfl h)
  by_cases hn : n ≤ 4
  · exact hunary.loosen hn (Nat.le_refl 4)
  · have hlast : Category.ofLevel n = .unary := by
      obtain ⟨m, rfl⟩ : ∃ m, n = m + 4 := ⟨n - 4, by omega⟩
      rfl
    rw [hlast]
    exact hunary

/-- A construct in parentheses. -/
private theorem Derives.group_ofLevel {n : Nat} (h : Derives (.ofLevel n) ts e) (hn : n ≤ 4) :
    Derives .primary (.lparen :: (ts ++ [.rparen])) e := .group (h.loosen (Nat.zero_le n) hn)

mutual

/-- A tree in parentheses is a primary expression. -/
theorem derives_parenthesized (e : Expr) (h : e.IsNamed) : Derives .primary e.parenthesized e := by
  match e with
  | .undefined => exact .word (by simp [wordValues])
  | .null => exact .word (by simp [wordValues])
  | .bool true => exact .word (by simp [wordValues])
  | .bool false => exact .word (by simp [wordValues])
  | .string t => exact .string t
  | .number x => exact .number x
  | .ident name => exact .ident h
  | .member target name =>
    have htarget := derives_parenthesized target h
    have hmember : Derives (.ofLevel 4) _ _ := .single rfl (.member name (.single rfl htarget))
    have hgroup := hmember.group_ofLevel (Nat.le_refl 4)
    rw [Expr.parenthesized]
    simpa using hgroup
  | .index target key =>
    have htarget := derives_parenthesized target h.1
    have hkey := (derives_parenthesized key h.2).of_primary 0
    have hindex : Derives (.ofLevel 4) _ _ := .single rfl (.index (.single rfl htarget) hkey)
    have hgroup := hindex.group_ofLevel (Nat.le_refl 4)
    rw [Expr.parenthesized]
    simpa using hgroup
  | .not e =>
    have hnot : Derives (.ofLevel 4) _ _ := .not ((derives_parenthesized e h).of_primary 4)
    exact hnot.group_ofLevel (Nat.le_refl 4)
  | .neg e =>
    have hneg : Derives (.ofLevel 4) _ _ := .neg ((derives_parenthesized e h).of_primary 4)
    exact hneg.group_ofLevel (Nat.le_refl 4)
  | .binary o left right =>
    -- both operands are primary, so they can stand at the level of any operator
    have hleft := (derives_parenthesized left h.1).of_primary o.level
    have hright := (derives_parenthesized right h.2).of_primary (o.level + 1)
    have hlevel := level_le o
    have hchain := Derives.chain (Category.mem_operators_ofLevel o) (Category.tighter?_ofLevel hlevel) hleft hright
    have hgroup := hchain.group_ofLevel (Nat.le_succ_of_le hlevel)
    rw [Expr.parenthesized]
    simpa using hgroup
  | .array [] => exact .noItems
  | .array (first :: es) =>
    have hfirst := (derives_parenthesized first h.1).of_primary 0
    have hitems := Derives.array (derives_furtherItems es h.2 (.item hfirst))
    rw [Expr.parenthesized]
    simpa using hitems
  | .object [] => exact .noFields
  | .object ((k, first) :: fields) =>
    have hfirst := (derives_parenthesized first h.1).of_primary 0
    have hfields := Derives.object (derives_furtherFields fields h.2 (.field (t := .string k) rfl hfirst))
    rw [Expr.parenthesized]
    simpa using hfields

/-- Further items go on with a row of items. -/
theorem derives_furtherItems (more : List Expr) (h : IsNamedItems more) {ts : List Token} {es : List Expr}
    (hes : Derives .items ts (.array es)) : Derives .items (ts ++ furtherItems more) (.array (es ++ more)) := by
  match more with
  | [] => simpa [furtherItems] using hes
  | e :: more =>
    have he := (derives_parenthesized e h.1).of_primary 0
    have hrest := derives_furtherItems more h.2 (.items hes he)
    rw [furtherItems]
    simpa using hrest

/-- Further fields go on with a row of fields. -/
theorem derives_furtherFields (more : List (Text × Expr)) (h : IsNamedFields more) {ts : List Token}
    {fields : List (Text × Expr)} (hfields : Derives .fields ts (.object fields)) :
    Derives .fields (ts ++ furtherFields more) (.object (fields ++ more)) := by
  match more with
  | [] => simpa [furtherFields] using hfields
  | (k, e) :: more =>
    have he := (derives_parenthesized e h.1).of_primary 0
    have hrest := derives_furtherFields more h.2 (.fields (t := .string k) hfields rfl he)
    rw [furtherFields]
    simpa using hrest

end

/-- Exactly the rows of tokens with a derivation are read, as the trees of their derivations. What was read is read
again when it is written with parentheses around every construct. -/
theorem ofTokens_iff_derives (ts : List Token) (e : Expr) :
    (Expr.ofTokens ts = .ok e ↔ Derives .or ts e) ∧
      (Expr.ofTokens ts = .ok e → Expr.ofTokens e.parenthesized = .ok e) := by
  have hiff : Expr.ofTokens ts = .ok e ↔ Derives .or ts e := ⟨Derives.of_ofTokens, Derives.ofTokens⟩
  refine ⟨hiff, fun h => ?_⟩
  have hprimary := derives_parenthesized e (Derives.of_ofTokens h).isNamed
  exact (hprimary.of_primary 0).ofTokens

/-- In `a || !b.c && [d] < -e == true` the tightest operators are grouped first, and a negation goes with its operand
only. -/
theorem ofTokens_mixedLevels :
    let ts : List Token := [.ident ['a'], .operator .or, .not, .ident ['b'], .dot, .ident ['c'], .operator .and,
      .lbracket, .ident ['d'], .rbracket, .operator .lt, .minus, .ident ['e'], .operator .eq, .ident "true".toList]
    let e : Expr := .binary .or (.ident ['a']) (.binary .and (.not (.member (.ident ['b']) ['c']))
      (.binary .eq (.binary .lt (.array [.ident ['d']]) (.neg (.ident ['e']))) (.bool true)))
    Expr.ofTokens ts = .ok e ∧ Derives .or ts e ∧ Expr.ofTokens e.parenthesized = .ok e := by
  intro ts e
  have hread : Expr.ofTokens ts = .ok e := rfl
  exact ⟨hread, (ofTokens_iff_derives ts e).1.1 hread, (ofTokens_iff_derives ts e).2 hread⟩

end Pagewright.Condition
