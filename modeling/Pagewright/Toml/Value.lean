import Pagewright.Toml.Scalar

/-! # `Toml.Value`: values and how they are written in TOML

A value is a scalar, an array of values or a table. The entries of a table are built one after the other
(`Entries.insert`): no key may be given two values, a table that was written out cannot be extended by the keys
of others, and one that was written in one value cannot be extended at all.
-/

namespace Pagewright.Toml

/-- A value. Numbers with a fraction and times are kept as they are written. -/
inductive Value where
  | text (t : Text)
  | integer (i : Int)
  | real (written : Text)
  | boolean (b : Bool)
  | time (written : Text)
  | array (items : List Value)
  | table (entries : List (Text × Value))
deriving Inhabited

/-- How a table came about. -/
inductive TableKind
  /-- By a heading of its own, or as the document. -/
  | explicit
  /-- By a heading of a table in it. -/
  | implied
  /-- By a key with dots. -/
  | dotted
deriving DecidableEq, Inhabited

/-- What stands under a key while a document is read. -/
inductive Node where
  | value (v : Value)
  | table (kind : TableKind) (entries : List (Text × Node))
  /-- Tables under the same heading, the latest first. -/
  | tables (items : List (List (Text × Node)))
deriving Inhabited

/-- What stands in a table while it is read. -/
abbrev Entries := List (Text × Node)

namespace Entries

/-- The entries with something under a key, in place of what may have been there. -/
def set (key : Text) (n : Node) : Entries → Entries
  | [] => [(key, n)]
  | (k, old) :: rest => if k = key then (k, n) :: rest else (k, old) :: set key n rest

/-- Changes a table that lies in others. Tables that are not there are made. The keys of a value do not lead
into a table with a heading of its own. -/
def within (byValue : Bool) (change : TableKind → Entries → Option Entries) :
    List Text → TableKind → Entries → Option Entries
  | [], kind, entries => change kind entries
  | key :: path, _, entries =>
    match entries.lookup key with
    | none =>
      let kind := if byValue then TableKind.dotted else .implied
      (within byValue change path kind []).map fun inner => entries.set key (.table kind inner)
    | some (.table kind inner) =>
      if byValue && kind = .explicit then none
      else (within byValue change path kind inner).map fun inner => entries.set key (.table kind inner)
    | some (.tables (latest :: earlier)) =>
      (within byValue change path .explicit latest).map fun latest =>
        entries.set key (.tables (latest :: earlier))
    | some (.tables []) => none
    | some (.value _) => none

/-- Puts a value under a key with dots, given as the keys before the last one and the last one. -/
def insert (path : List Text) (key : Text) (v : Value) (kind : TableKind) (entries : Entries) :
    Option Entries :=
  entries.within true (fun kind inner =>
    -- a key without dots belongs into a table that is not made by dots, one with dots into one that is
    if decide (kind = .dotted) == path.isEmpty || (inner.lookup key).isSome then none
    else some (inner.set key (.value v))) path kind

/-- Opens the table of a heading. -/
def openTable (path : List Text) (key : Text) (entries : Entries) : Option Entries :=
  entries.within false (fun _ inner =>
    match inner.lookup key with
    | none => some (inner.set key (.table .explicit []))
    | some (.table .implied found) => some (inner.set key (.table .explicit found))
    | _ => none) path .explicit

/-- Opens the next of the tables of a heading. -/
def openNext (path : List Text) (key : Text) (entries : Entries) : Option Entries :=
  entries.within false (fun _ inner =>
    match inner.lookup key with
    | none => some (inner.set key (.tables [[]]))
    | some (.tables items) => some (inner.set key (.tables ([] :: items)))
    | _ => none) path .explicit

end Entries

mutual

/-- The value that was read. -/
def Node.toValue : Node → Value
  | .value v => v
  | .table _ entries => .table (entriesToValues entries)
  | .tables items => .array (tablesToValues items).reverse

/-- The values of entries. -/
def entriesToValues : List (Text × Node) → List (Text × Value)
  | [] => []
  | (key, n) :: rest => (key, n.toValue) :: entriesToValues rest

/-- The values of tables. -/
def tablesToValues : List (List (Text × Node)) → List Value
  | [] => []
  | entries :: rest => .table (entriesToValues entries) :: tablesToValues rest

end

/-! ## Keys -/

/-- May the character stand in a key without quotes? -/
def isKeyChar (c : Char) : Bool := c.isAlphanum || c = '_' || c = '-'

/-- A key without dots, and what follows it. -/
def key? : Text → Option (Text × Text)
  | '"' :: r => basicText? 0 r
  | '\'' :: r => literalText? r
  | t =>
    let key := t.takeWhile isKeyChar
    if key.isEmpty then none else some (key, t.drop key.length)

/-- A key with dots, and what follows it and the blanks behind it; the number bounds its parts. -/
def keys? : Nat → Text → Option (List Text × Text)
  | 0, _ => none
  | fuel + 1, t => do
    let (key, rest) ← key? t
    match skipBlanks rest with
    | '.' :: r =>
      let (more, left) ← keys? fuel (skipBlanks r)
      return (key :: more, left)
    | left => return ([key], left)

/-- The keys before the last one, and the last one. -/
def splitKeys (keys : List Text) : List Text × Text := (keys.dropLast, keys.getLast?.getD [])

/-! ## Values -/

/-- What follows blanks, line breaks and comments; the flag says that a comment goes on. -/
def skipGap? : Bool → Text → Option Text
  | _, [] => some []
  | true, c :: r =>
    if c = '\n' then skipGap? false r
    else if isPlain c || c = '\r' && r.head? = some '\n' then skipGap? true r
    else none
  | false, c :: r =>
    if isBlank c || c = '\n' || c = '\r' && r.head? = some '\n' then skipGap? false r
    else if c = '#' then skipGap? true r
    else some (c :: r)

/-- The value that a word is. -/
def wordValue? (t : Text) : Option Value :=
  if t = "true".toList then some (.boolean true)
  else if t = "false".toList then some (.boolean false)
  else match integer? t with
    | some i => some (.integer i)
    | none => if isReal t then some (.real t) else if isTime t then some (.time t) else none

mutual

/-- A value, and what follows it; the number bounds the length of the text. -/
def value? : Nat → Text → Option (Value × Text)
  | 0, _ => none
  | fuel + 1, t =>
    match t with
    | '[' :: r => do
      let (items, rest) ← items? fuel (← skipGap? false r)
      return (.array items, rest)
    | '\x7b' :: r => do
      let (entries, rest) ← pairs? fuel [] (← skipGap? false r)
      return (.table (entriesToValues entries), rest)
    | '"' :: _ => (text? t).map fun (s, rest) => (.text s, rest)
    | '\'' :: _ => (text? t).map fun (s, rest) => (.text s, rest)
    | _ =>
      let (own, rest) := word t
      (wordValue? own).map fun v => (v, rest)

/-- The items of an array up to its closing bracket, and what follows it. -/
def items? : Nat → Text → Option (List Value × Text)
  | 0, _ => none
  | fuel + 1, t =>
    match t with
    | ']' :: r => some ([], r)
    | _ => do
      let (v, rest) ← value? fuel t
      match ← skipGap? false rest with
      | ',' :: r =>
        let (more, left) ← items? fuel (← skipGap? false r)
        return (v :: more, left)
      | ']' :: r => return ([v], r)
      | _ => none

/-- The entries of a table up to its closing brace, put behind others, and what follows it. -/
def pairs? : Nat → Entries → Text → Option (Entries × Text)
  | 0, _, _ => none
  | fuel + 1, entries, t =>
    match t with
    | '\x7d' :: r => some (entries, r)
    | _ => do
      let (keys, rest) ← keys? t.length t
      let afterSign ← Text.after? ['='] rest
      let (v, rest) ← value? fuel (skipBlanks afterSign)
      let (path, key) := splitKeys keys
      let entries ← entries.insert path key v .explicit
      match ← skipGap? false rest with
      | ',' :: r => pairs? fuel entries (← skipGap? false r)
      | '\x7d' :: r => return (entries, r)
      | _ => none

end

end Pagewright.Toml
