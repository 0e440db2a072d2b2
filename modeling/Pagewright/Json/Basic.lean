import Pagewright.Binary64.Basic
import Pagewright.Text.Basic

/-! # `Json`: the values that pages are filled from

Items of collections, frontmatter and scopes are JSON values. Whole numbers keep their exact value
(`Number.int`) and are told apart from floating-point numbers. The fields of an object are kept in the
order of their names, each name once (`Fields.insert`), so equal objects have equal lists of fields.
-/

namespace Pagewright

/-- A number as it was written: whole, or floating-point. -/
inductive Number
  | int (i : Int)
  | real (x : Binary64)
deriving DecidableEq, Inhabited

namespace Number

/-- The value as a floating-point number, rounded if need be. -/
def toReal : Number → Binary64
  | int i => .ofInt i
  | real x => x

/-- Equality of numbers: a whole number never equals a floating-point one. -/
def same : Number → Number → Bool
  | int i, int j => i == j
  | real x, real y => x.equals y
  | _, _ => false

end Number

/-- A JSON value. -/
inductive Json
  | null
  | bool (b : Bool)
  | number (n : Number)
  | string (t : Text)
  | array (items : List Json)
  | object (fields : List (Text × Json))
deriving Inhabited

/-- The fields of an object: names with values, in ascending order of the names. -/
abbrev Fields := List (Text × Json)

namespace Fields

/-- The value under a name. -/
def get? (name : Text) : Fields → Option Json
  | [] => none
  | (k, v) :: rest => if k = name then some v else get? name rest

/-- The fields with a value under a name, in place of the one it may have had. -/
def insert (name : Text) (value : Json) : Fields → Fields
  | [] => [(name, value)]
  | (k, v) :: rest =>
    match Text.compare name k with
    | .lt => (name, value) :: (k, v) :: rest
    | .eq => (name, value) :: rest
    | .gt => (k, v) :: insert name value rest

/-- The fields of a list of pairs, where a later pair replaces an earlier one of the same name. -/
def ofList (pairs : List (Text × Json)) : Fields :=
  pairs.foldl (fun fields (k, v) => insert k v fields) []

end Fields

namespace Json

/-- A whole number as a value. -/
def ofNat (n : Nat) : Json := .number (.int n)

/-- Is the value null? -/
def isNull : Json → Bool
  | null => true
  | _ => false

/-- Is the value an array or an object? -/
def isCompound : Json → Bool
  | array _ | object _ => true
  | _ => false

mutual

/-- Equality of values, where numbers are compared by `Number.same`. -/
def same : Json → Json → Bool
  | null, null => true
  | bool a, bool b => a == b
  | number a, number b => a.same b
  | string a, string b => a == b
  | array a, array b => sameItems a b
  | object a, object b => sameFields a b
  | _, _ => false

/-- Equality of lists of values. -/
def sameItems : List Json → List Json → Bool
  | [], [] => true
  | a :: as, b :: bs => same a b && sameItems as bs
  | _, _ => false

/-- Equality of lists of fields. -/
def sameFields : List (Text × Json) → List (Text × Json) → Bool
  | [], [] => true
  | (k, a) :: as, (l, b) :: bs => k == l && same a b && sameFields as bs
  | _, _ => false

end

end Json

end Pagewright
