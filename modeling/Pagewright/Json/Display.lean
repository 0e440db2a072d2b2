import Pagewright.Json.Writer

/-! # `Json.Display`: values in the text of a page, and paths to them

`display` is how a value is shown on a page. A path names a value inside another one: its parts, with
dots between them, are names of fields and positions in arrays. `navigate` follows a path from a value,
`Fields.lookup` from the fields of a scope, where a field whose own name is the path comes first.
-/

namespace Pagewright

/-- A number on a page: as few digits as possible, no exponent, no point in whole numbers. -/
def Number.display : Number → Text
  | .int i => Text.ofInt i
  | .real x => x.plainText

namespace Json

/-! ## Values on a page -/

mutual

/-- A value on a page. An array that begins with an array or an object is shown as JSON, like an
object; the items of any other array are shown with bars between them. -/
def display : Json → Text
  | null => "null".toList
  | bool b => if b then "true".toList else "false".toList
  | number n => n.display
  | string t => t
  | array [] => []
  | array (v :: rest) =>
    if v.isCompound then compact (array (v :: rest)) else displayItems (v :: rest)
  | object fields => compact (object fields)

/-- Items with bars between them; null is shown as nothing. -/
def displayItems : List Json → Text
  | [] => []
  | [v] => if v.isNull then [] else display v
  | v :: w :: rest => (if v.isNull then [] else display v) ++ '|' :: displayItems (w :: rest)

end

/-! ## Paths -/

/-- The part of a value that a name or a position stands for. -/
def child? (v : Json) (key : Text) : Option Json :=
  match v with
  | object fields => Fields.get? key fields
  | array items => (Text.index? key).bind fun i => items[i]?
  | _ => none

/-- Follows the parts of a path one after the other. -/
def descend? (v : Json) : List Text → Option Json
  | [] => some v
  | key :: rest => (v.child? key).bind fun w => descend? w rest

/-- The value at the end of a path. -/
def navigate? (v : Json) (path : Text) : Option Json := v.descend? (Text.split '.' path)

end Json

/-- The value that a path names in a scope: the field of that very name, or else what is found by
following the parts of the path. -/
def Fields.lookup? (fields : Fields) (path : Text) : Option Json :=
  match Fields.get? path fields with
  | some v => some v
  | none =>
    match Text.splitOnce? '.' path with
    | some (head, rest) => (Fields.get? head fields).bind fun v => v.navigate? rest
    | none => none

end Pagewright
