import Pagewright.Binary64.Decimal
import Pagewright.Json.Basic
import Pagewright.Yaml.Node

/-! # `Yaml.Value`: YAML texts as JSON values

What a plain scalar means follows from its form (`plainValue?`); a tag of YAML's own asks for one form,
and a scalar with any other tag, in quotes or in a block is a text. A tag that begins with an exclamation
mark has no meaning in JSON. Aliases are replaced by what they stand for; both the depth of the value and
the number of replacements are limited, so a short text cannot stand for an endless value.
-/

namespace Pagewright.Yaml

/-! ## Plain scalars -/

/-- The words for null. -/
def isNullWord (t : Text) : Bool :=
  ["null".toList, "Null".toList, "NULL".toList, "~".toList].any (· = t)

/-- The truth value that a word names. -/
def boolOf? (t : Text) : Option Bool :=
  if ["true".toList, "True".toList, "TRUE".toList].any (· = t) then some true
  else if ["false".toList, "False".toList, "FALSE".toList].any (· = t) then some false
  else none

/-- Digits with a zero in front are a text and no number. -/
def isZeroPadded (t : Text) : Bool :=
  let digits := match t with
    | '-' :: r => r
    | '+' :: r => r
    | _ => t
  match digits with
  | '0' :: d :: r => (d :: r).all Text.isDigit
  | _ => false

/-- A number behind one of the openings of other bases. -/
def natInBase? (t : Text) : Option Nat :=
  match t with
  | '0' :: 'x' :: r => Text.natOfDigits? 16 r
  | '0' :: 'o' :: r => Text.natOfDigits? 8 r
  | '0' :: 'b' :: r => Text.natOfDigits? 2 r
  | _ => none

/-- The whole number that a scalar writes, of any size. -/
def intOf? (t : Text) : Option Int :=
  let nat? (t : Text) : Option Nat :=
    (natInBase? t).or (if isZeroPadded t then none else Text.natOfDigits? 10 t)
  match t with
  | '-' :: r => (nat? r).map fun n => -(n : Int)
  | '+' :: r => (nat? r).map Int.ofNat
  | _ => (nat? t).map Int.ofNat

/-- The bounds of whole numbers that a value can have, and of those that are refused; beyond the second
ones a number is a floating-point number. -/
inductive IntRange
  | accepted | refused | beyond

/-- The range of a whole number. -/
def IntRange.of (i : Int) : IntRange :=
  if -(Binary64.powerOfTwo 63 : Int) ≤ i && i < Binary64.powerOfTwo 64 then accepted
  else if -(Binary64.powerOfTwo 127 : Int) ≤ i && i < Binary64.powerOfTwo 128 then refused
  else beyond

/-- The floating-point number that a scalar writes. -/
def realOf? (t : Text) : Option Binary64 :=
  let body := match t with
    | '+' :: r => r
    | _ => t
  let signedTwice := match t with
    | '+' :: '+' :: _ => true
    | '+' :: '-' :: _ => true
    | _ => false
  if signedTwice then none
  else if [".inf".toList, ".Inf".toList, ".INF".toList].any (· = body) then some (.infinite false)
  else if ["-.inf".toList, "-.Inf".toList, "-.INF".toList].any (· = t) then some (.infinite true)
  else if [".nan".toList, ".NaN".toList, ".NAN".toList].any (· = t) then some .nan
  else match Binary64.parse? body with
    | some x => if x.isFinite then some x else none
    | none => none

/-- A floating-point number as a value; JSON has only finite ones. -/
def realValue (x : Binary64) : Json := if x.isFinite then .number (.real x) else .null

/-- What a plain scalar means; none for a whole number that no value can have. -/
def plainValue? (t : Text) : Option Json :=
  if t.isEmpty || isNullWord t then some .null
  else match boolOf? t with
    | some b => some (.bool b)
    | none =>
      let other : Json :=
        if isZeroPadded t then .string t
        else match realOf? t with
          | some x => realValue x
          | none => .string t
      match intOf? t with
      | some i =>
        match IntRange.of i with
        | .accepted => some (.number (.int i))
        | .refused => none
        | .beyond => some other
      | none => some other

/-! ## Tagged scalars -/

/-- Does a tag ask for a type that only an application could know? -/
def isLocalTag (t : Option Text) : Bool :=
  match t with
  | some ('!' :: _) => true
  | _ => false

/-- One of YAML's own tags. -/
def ownTag (name : String) : Text := "tag:yaml.org,2002:".toList ++ name.toList

/-- What a scalar means. -/
def scalarValue? (tag : Option Text) (t : Text) (plain : Bool) : Option Json :=
  match tag with
  | none => if plain then plainValue? t else some (.string t)
  | some tag =>
    if isLocalTag (some tag) then none
    else if tag = ownTag "bool" then (boolOf? t).map .bool
    else if tag = ownTag "int" then
      match intOf? t with
      | some i => match IntRange.of i with
        | .accepted => some (.number (.int i))
        | _ => none
      | none => none
    else if tag = ownTag "float" then (realOf? t).map realValue
    else if tag = ownTag "null" then if isNullWord t then some .null else none
    else some (.string t)

/-! ## Trees -/

/-- The greatest number of collections around a value. -/
def maxDepth : Nat := 128

/-- Replaces a reference by its target; the number of replacements that are left goes down. -/
def follow (root n : Node) (left : Nat) : Option (Node × Nat) :=
  match n with
  | .reference target =>
    match left, root.find? target with
    | left + 1, some m => some (m, left)
    | _, _ => none
  | _ => some (n, left)

/-- The text of a key, whatever its form. -/
def keyText (root n : Node) (left : Nat) : Option (Text × Nat) :=
  match follow root n left with
  | some (.scalar _ t _, left) => some (t, left)
  | _ => none

/-- The value of a node with at most `depth` collections around one another, and the number of
replacements of aliases that are left. -/
def Node.value? (root : Node) : Nat → Node → Nat → Option (Json × Nat)
  | depth, n, left =>
    match follow root n left with
    | none => none
    | some (.reference _, _) => none
    | some (.scalar p t plain, left) => (scalarValue? p.tag t plain).map fun v => (v, left)
    | some (.sequence p items, left) =>
      match depth with
      | 0 => none
      | depth + 1 => do
        if isLocalTag p.tag then none
        let (values, left) ← items.foldlM
          (fun (values, left) n => do
            let (v, left) ← value? root depth n left
            return (v :: values, left))
          (([] : List Json), left)
        return (.array values.reverse, left)
    | some (.mapping p fields, left) =>
      match depth with
      | 0 => none
      | depth + 1 => do
        if isLocalTag p.tag then none
        let (values, left) ← fields.foldlM
          (fun (values, left) (k, n) => do
            let (key, left) ← keyText root k left
            let (v, left) ← value? root depth n left
            return (Fields.insert key v values, left))
          (([] : Fields), left)
        return (.object values, left)

/-- The value of a YAML text; an empty one is null. -/
def value? (t : Text) : Option Json := do
  let tokens ← Token.scan? t
  match ← Node.ofTokens? tokens.toList with
  | none => return .null
  | some root => (Node.value? root maxDepth root (100 * root.eventCount)).map Prod.fst

end Pagewright.Yaml
