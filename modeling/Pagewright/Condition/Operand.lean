import Pagewright.Binary64.Decimal
import Pagewright.Json.Basic
import Pagewright.Text.Units

/-! # `Condition.Operand`: the values of conditions

Values are compared as scripts on web pages do: a missing value, a number and a text are converted when
they meet a value of another kind, and arrays and objects are turned into texts when they meet a value
that is neither.
-/

namespace Pagewright.Condition

/-- A value in a condition. -/
inductive Operand
  | undefined
  | null
  | bool (b : Bool)
  | number (x : Binary64)
  | string (t : Text)
  | array (items : List Json)
  | object (fields : Fields)
deriving Inhabited

namespace Operand

/-! ## Conversions -/

/-- A value of a scope as an operand. -/
def ofJson : Json → Operand
  | .null => null
  | .bool b => bool b
  | .number n => number n.toReal
  | .string t => string t
  | .array items => array items
  | .object fields => object fields

/-- An operand as an item of an array or a field of an object. -/
def toJson : Operand → Json
  | undefined | null => .null
  | bool b => .bool b
  | number x => if x.isFinite then .number (.real x) else .null
  | string t => .string t
  | array items => .array items
  | object fields => .object fields

/-- Does the value count as true? -/
def isTruthy : Operand → Bool
  | undefined | null => false
  | bool b => b
  | number x => !x.isZero && x != .nan
  | string t => !t.isEmpty
  | array _ | object _ => true

/-- Is the value an array or an object? -/
def isCompound : Operand → Bool
  | array _ | object _ => true
  | _ => false

mutual

/-- A value of a scope as a text. -/
def jsonText : Json → Text
  | .null => "null".toList
  | .bool b => if b then "true".toList else "false".toList
  | .number n => n.toReal.plainText
  | .string t => t
  | .array items => itemsText items
  | .object _ => "[object Object]".toList

/-- The items of an array as a text: separated by commas, null being empty. -/
def itemsText : List Json → Text
  | [] => []
  | [v] => if v.isNull then [] else jsonText v
  | v :: w :: rest => (if v.isNull then [] else jsonText v) ++ ',' :: itemsText (w :: rest)

end

/-- A value as a text. -/
def text : Operand → Text
  | undefined => "undefined".toList
  | null => "null".toList
  | bool b => if b then "true".toList else "false".toList
  | number x => x.plainText
  | string t => t
  | array items => itemsText items
  | object _ => "[object Object]".toList

/-- The number that a text is, blanks around it aside; an empty one is zero, and a text that is no
number has no numeric value. -/
def numberOfText (t : Text) : Binary64 :=
  let trimmed := Text.trim t
  if trimmed.isEmpty then .zero else (Binary64.parse? trimmed).getD .nan

/-- A value as a number. -/
def toNumber : Operand → Binary64
  | undefined | object _ => .nan
  | null => .zero
  | bool b => .ofInt (if b then 1 else 0)
  | number x => x
  | string t => numberOfText t
  | array items => numberOfText (itemsText items)

/-! ## Equality -/

/-- Equality without conversions. -/
def strictEquals : Operand → Operand → Bool
  | undefined, undefined => true
  | null, null => true
  | bool a, bool b => a == b
  | number x, number y => x.equals y
  | string s, string t => s == t
  | array as, array bs => Json.sameItems as bs
  | object as, object bs => Json.sameFields as bs
  | _, _ => false

/-- A truth value as a number, all others as they are. -/
def boolAsNumber : Operand → Operand
  | bool b => number (.ofInt (if b then 1 else 0))
  | a => a

/-- Equality where a number and a text are compared as numbers. -/
def numericEquals : Operand → Operand → Bool
  | number x, string t => x.equals (numberOfText t)
  | string s, number y => (numberOfText s).equals y
  | a, b => strictEquals a b

/-- Is the value one of the two kinds of nothing? -/
def isNothing : Operand → Bool
  | undefined | null => true
  | _ => false

/-- Equality with conversions. -/
def looseEquals (a b : Operand) : Bool :=
  if a.isNothing || b.isNothing then a.isNothing && b.isNothing
  else
    let a := a.boolAsNumber
    let b := b.boolAsNumber
    if a.isCompound && !b.isCompound then numericEquals (string a.text) b
    else if b.isCompound && !a.isCompound then numericEquals a (string b.text)
    else numericEquals a b

/-! ## Order -/

/-- The text of a value that is compared as a text. -/
def textForOrder? : Operand → Option Text
  | string t => some t
  | array items => some (itemsText items)
  | object _ => some "[object Object]".toList
  | _ => none

/-- The order of two values: of their texts when both are texts, arrays or objects, otherwise of their
numbers. -/
def order? (a b : Operand) : Option Ordering :=
  match a.textForOrder?, b.textForOrder? with
  | some s, some t => some (Text.compareUnits (Text.units s) (Text.units t))
  | _, _ => a.toNumber.compare? b.toNumber

end Operand

end Pagewright.Condition
