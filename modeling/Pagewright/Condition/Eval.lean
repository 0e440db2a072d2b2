import Pagewright.Condition.Expr
import Pagewright.Condition.Operand

/-! # `Condition.Eval`: the value of a condition

`Expr.eval` is the value of an expression in a context of named values, `evaluate` whether a condition
holds for a scope.
-/

namespace Pagewright.Condition

open Operand

/-- The truth value of a comparison. The two operators that are no comparisons do not get here. -/
def Operator.holds (o : Operator) (a b : Operand) : Bool :=
  match o with
  | .or | .and => false
  | .eq => looseEquals a b
  | .notEq => !looseEquals a b
  | .strictEq => strictEquals a b
  | .strictNotEq => !strictEquals a b
  | .lt => order? a b == some .lt
  | .le => order? a b == some .lt || order? a b == some .eq
  | .gt => order? a b == some .gt
  | .ge => order? a b == some .gt || order? a b == some .eq

/-- A property of a value: a field of an object, an item of an array, a character of a text, or the
length of one of the latter two. -/
def Operand.property (target : Operand) (name : Text) : Except ConditionError Operand :=
  match target with
  | undefined | null => .error (.memberOfNothing name target.text)
  | object fields => .ok (((Fields.get? name fields).map ofJson).getD undefined)
  | array items =>
    if name = "length".toList then .ok (number (.ofInt items.length))
    else match Text.index? name with
      | some i => .ok ((items[i]?.map ofJson).getD undefined)
      | none => .ok undefined
  | string t =>
    if name = "length".toList then .ok (number (.ofInt (Text.units t).length))
    else match Text.index? name with
      | some i => .ok ((t[i]?.map fun c => string [c]).getD undefined)
      | none => .ok undefined
  | bool _ | number _ => .ok undefined

mutual

/-- The value of an expression. -/
def Expr.eval (context : Fields) : Expr → Except ConditionError Operand
  | .undefined => .ok .undefined
  | .null => .ok .null
  | .bool b => .ok (.bool b)
  | .string t => .ok (.string t)
  | .number x => .ok (.number x)
  | .ident name =>
    match Fields.get? name context with
    | some v => .ok (ofJson v)
    | none => .error (.unknownIdentifier name)
  | .member target name => do
    let v ← target.eval context
    v.property name
  | .index target key => do
    let v ← target.eval context
    let k ← key.eval context
    v.property k.text
  | .not e => do
    let v ← e.eval context
    return .bool (!v.isTruthy)
  | .neg e => do
    let v ← e.eval context
    return .number v.toNumber.neg
  | .binary o left right => do
    let a ← left.eval context
    match o with
    | .or => if a.isTruthy then return a else right.eval context
    | .and => if a.isTruthy then right.eval context else return a
    | o =>
      let b ← right.eval context
      return .bool (o.holds a b)
  | .array items => do
    let vs ← Expr.evalItems context items
    return .array vs
  | .object fields => do
    let vs ← Expr.evalFields context fields
    return .object (Fields.ofList vs)

/-- The values of the items of an array. -/
def Expr.evalItems (context : Fields) : List Expr → Except ConditionError (List Json)
  | [] => .ok []
  | e :: es => do
    let v ← e.eval context
    let vs ← Expr.evalItems context es
    return v.toJson :: vs

/-- The values of the fields of an object. -/
def Expr.evalFields (context : Fields) :
    List (Text × Expr) → Except ConditionError (List (Text × Json))
  | [] => .ok []
  | (k, e) :: es => do
    let v ← e.eval context
    let vs ← Expr.evalFields context es
    return (k, v.toJson) :: vs

end

/-- What a condition can name: the fields of the scope, and the scope as a whole under its name,
unless it has a field of that name. -/
def contextOf (scope : Fields) (scopeName : Text) : Fields :=
  scope.foldl (fun context (k, v) => Fields.insert k v context) [(scopeName, .object scope)]

/-- Does a condition hold for a scope? -/
def evaluate (condition : Text) (scope : Fields) (scopeName : Text) : Except ConditionError Bool := do
  let tokens ← Token.scan condition
  let e ← Expr.ofTokens tokens
  let v ← e.eval (contextOf scope scopeName)
  return v.isTruthy

end Pagewright.Condition
