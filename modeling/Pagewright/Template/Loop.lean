import Pagewright.Condition.Block
import Pagewright.Text.Lowercase

/-! # `Template.Loop`: parts of a document that are repeated

`<ForEach collection="…" as="…">body</ForEach>` stands for its body once for each item of a collection.
Here is what does not need the site: the order of the items (`sortItems`), the part of them that is taken
(`window`) and the body for one item (`renderItem`). While a body is rendered, markers stand for the loops
inside it, so that their conditions wait for their own items.
-/

namespace Pagewright.Loop

/-- The name of the element. -/
def tag : Text := "ForEach".toList

/-! ## Order -/

/-- How items are put in order. -/
structure Order where
  field : Text
  descending : Bool
deriving DecidableEq, Inhabited

/-- An order as it is written: a field, and behind a comma the word `desc` for the opposite direction. -/
def Order.ofText (written : Text) : Order :=
  match Text.splitOnce? ',' written with
  | some (field, direction) =>
    ⟨Text.trim field, Text.sameIgnoringAsciiCase (Text.trim direction) "desc".toList⟩
  | none => ⟨Text.trim written, false⟩

/-- The order of words: case does not count, and between words that differ only in it the one whose
first different letter is small comes first. -/
def collate (a b : Text) : Ordering :=
  (Text.compare (Text.lowercase a) (Text.lowercase b)).then (Text.compare b a)

/-- The order of two values of a field: words as words, numbers as numbers; any other two are equal. -/
def compareValues : Option Json → Option Json → Ordering
  | some (.string a), some (.string b) => collate a b
  | some (.number a), some (.number b) => (a.toReal.compare? b.toReal).getD .eq
  | _, _ => .eq

/-- The value of a field of an item. -/
def fieldOf (name : Text) : Json → Option Json
  | .object fields => Fields.get? name fields
  | _ => none

/-- Does the first item belong before the second one? -/
def Order.precedes (o : Order) (a b : Json) : Bool :=
  compareValues (fieldOf o.field a) (fieldOf o.field b) = (if o.descending then .gt else .lt)

/-- Puts an item behind the last one before which it does not belong. The items are in backward
order. -/
def insertBackward (precedes : Json → Json → Bool) (x : Json) : List Json → List Json
  | [] => [x]
  | y :: before => if precedes x y then y :: insertBackward precedes x before else x :: y :: before

/-- Puts items in order; those that are equal keep their order. -/
def sortItems (o : Order) (items : List Json) : List Json :=
  (items.foldl (fun sorted x => insertBackward o.precedes x sorted) []).reverse

/-! ## Attributes -/

/-- A count in an attribute; what is no count does not count. -/
def countAttribute? (e : Element) (name : String) : Option Nat :=
  (e.attribute? name.toList).bind fun t => Text.index? (Text.trim t)

/-- The items that are taken: some are passed over, and at most so many are kept. -/
def window (e : Element) (items : List Json) : List Json :=
  let rest := items.drop ((countAttribute? e "offset").getD 0)
  match countAttribute? e "count" with
  | some n => rest.take n
  | none => rest

/-- The name of an item in the body of a loop over a collection. -/
def aliasOf (e : Element) (collection : Text) : Text :=
  (e.attribute? "as".toList).getD (collection.map fun c => if c = '/' then '.' else c)

/-- An opening tag with the given attributes. -/
def openingTag (name : Text) (attributes : Attributes) : Text :=
  '<' :: name ++ attributes.flatMap (fun (k, v) =>
    ' ' :: k ++ "=\"".toList ++ Text.replaceAll ['"'] "&quot;".toList v ++ ['"']) ++ ['>']

/-! ## The body for one item -/

/-- What stands for a loop inside a body while the body is rendered. -/
def marker (index : Nat) : Text := '\x00' :: tag ++ ':' :: Text.ofNat index ++ ['\x00']

/-- The body with markers in place of the loops inside it, counted from the given number. -/
def mask (index : Nat) : List Piece → Text
  | [] => []
  | .text t :: rest => t ++ mask index rest
  | .element _ :: rest => marker index ++ mask (index + 1) rest

/-- Puts the loops back in place of their markers, each once. -/
def unmask (index : Nat) (t : Text) : List Piece → Text
  | [] => t
  | .text _ :: rest => unmask index t rest
  | .element e :: rest => unmask (index + 1) (Text.replaceFirst (marker index) e.text t) rest

/-- The scope of an item: its fields and the number of the round. -/
def scopeOf (item : Json) (index : Nat) : Fields :=
  let fields : Fields := match item with
    | .object fields => fields
    | _ => []
  fields.insert "loop".toList (.ofNat (index + 1))

/-- Is the value an object? -/
def isObject : Json → Bool
  | .object _ => true
  | _ => false

/-- The body for one item: conditions outside the loops inside it, then the loops again, then
placeholders. -/
def renderItem (body : Text) (item : Json) (index : Nat) (scopeName : Text) : Text :=
  let scope := scopeOf item index
  let parts := pieces tag body
  let shown := unmask 0 (Condition.resolveBlocks scope scopeName (mask 0 parts)) parts
  let named := if isObject item then shown else replaceNamed scopeName item.display shown
  replaceScoped scopeName scope named

end Pagewright.Loop
