import Pagewright.Condition.Token

/-! # `Condition.Expr`: conditions as trees

Tokens are read one by one by a machine with a stack. Its state (`State`) is what may come next
(`Expecting`) and the constructs that are still open, innermost first (`Frame`). Each token takes the
machine one step further or is refused there and then, so the token that an error names is the first
one that no expression can go on with.
-/

namespace Pagewright.Condition

/-- A condition as a tree. -/
inductive Expr
  | undefined
  | null
  | bool (b : Bool)
  | string (t : Text)
  | number (x : Binary64)
  | ident (name : Text)
  | member (target : Expr) (name : Text)
  | index (target key : Expr)
  | not (e : Expr)
  | neg (e : Expr)
  | binary (o : Operator) (left right : Expr)
  | array (items : List Expr)
  | object (fields : List (Text × Expr))
deriving Inhabited

/-- A construct that is still open. -/
inductive Frame
  /-- A negation without its operand. -/
  | not
  /-- A minus sign without its operand. -/
  | neg
  /-- An operator with its left operand only. -/
  | binary (o : Operator) (left : Expr)
  /-- An opening parenthesis. -/
  | group
  /-- An opening bracket after the value that is indexed. -/
  | index (target : Expr)
  /-- An array without its closing bracket; the items before the current one. -/
  | array (items : List Expr)
  /-- An object without its closing brace; the fields before the current one, and its name. -/
  | object (fields : List (Text × Expr)) (key : Text)
deriving Inhabited

/-- What may come next. -/
inductive Expecting
  /-- The beginning of an operand. -/
  | operand
  /-- The first item of an array, or its end. -/
  | firstItem
  /-- The first name of an object, or its end. -/
  | firstKey
  /-- The name of a further field. -/
  | key (fields : List (Text × Expr))
  /-- The colon between the name of a field and its value. -/
  | colon (fields : List (Text × Expr)) (key : Text)
  /-- The name of a property. -/
  | property (target : Expr)
  /-- Anything that can follow a complete operand. -/
  | continuation (operand : Expr)
deriving Inhabited

/-- A state of the reading machine. -/
structure State where
  expecting : Expecting
  frames : List Frame
deriving Inhabited

namespace State

/-- Nothing read yet. -/
def start : State := ⟨.operand, []⟩

/-- The operand that a name stands for: four names are values. -/
def operandOfName (name : Text) : Expr :=
  if name = "true".toList then .bool true
  else if name = "false".toList then .bool false
  else if name = "null".toList then .null
  else if name = "undefined".toList then .undefined
  else .ident name

/-- Closes the constructs that end before an operator of a level: those that bind at least as tightly,
since operators of one level are grouped from the left. -/
def close (level : Nat) (e : Expr) : List Frame → Expr × List Frame
  | .not :: fs => close level (.not e) fs
  | .neg :: fs => close level (.neg e) fs
  | .binary o left :: fs =>
    if level ≤ o.level then close level (.binary o left e) fs else (e, .binary o left :: fs)
  | fs => (e, fs)

/-- Reads the beginning of an operand. -/
def beginOperand (fs : List Frame) : Token → Except ConditionError State
  | .number x => .ok ⟨.continuation (.number x), fs⟩
  | .string t => .ok ⟨.continuation (.string t), fs⟩
  | .ident name => .ok ⟨.continuation (operandOfName name), fs⟩
  | .lparen => .ok ⟨.operand, .group :: fs⟩
  | .lbracket => .ok ⟨.firstItem, fs⟩
  | .lbrace => .ok ⟨.firstKey, fs⟩
  | .not => .ok ⟨.operand, .not :: fs⟩
  | .minus => .ok ⟨.operand, .neg :: fs⟩
  | t => .error (.unexpectedToken t)

/-- Reads the name of a field. -/
def beginField (fields : List (Text × Expr)) (fs : List Frame) : Token → Except ConditionError State
  | .string k | .ident k => .ok ⟨.colon fields k, fs⟩
  | .number x => .ok ⟨.colon fields x.plainText, fs⟩
  | t => .error (.unexpectedToken t)

/-- Reads a token after a complete operand. -/
def continueOperand (e : Expr) (fs : List Frame) : Token → Except ConditionError State
  | .dot => .ok ⟨.property e, fs⟩
  | .lbracket => .ok ⟨.operand, .index e :: fs⟩
  | .operator o =>
    let (left, fs) := close o.level e fs
    .ok ⟨.operand, .binary o left :: fs⟩
  | .rparen =>
    match close 0 e fs with
    | (inner, .group :: fs) => .ok ⟨.continuation inner, fs⟩
    | _ => .error (.unexpectedToken .rparen)
  | .rbracket =>
    match close 0 e fs with
    | (key, .index target :: fs) => .ok ⟨.continuation (.index target key), fs⟩
    | (item, .array items :: fs) => .ok ⟨.continuation (.array (items ++ [item])), fs⟩
    | _ => .error (.unexpectedToken .rbracket)
  | .rbrace =>
    match close 0 e fs with
    | (value, .object fields k :: fs) =>
      .ok ⟨.continuation (.object (fields ++ [(k, value)])), fs⟩
    | _ => .error (.unexpectedToken .rbrace)
  | .comma =>
    match close 0 e fs with
    | (item, .array items :: fs) => .ok ⟨.operand, .array (items ++ [item]) :: fs⟩
    | (value, .object fields k :: fs) => .ok ⟨.key (fields ++ [(k, value)]), fs⟩
    | _ => .error (.unexpectedToken .comma)
  | t => .error (.unexpectedToken t)

/-- Reads one token. -/
def step : State → Token → Except ConditionError State
  | ⟨.operand, fs⟩, t => beginOperand fs t
  | ⟨.firstItem, fs⟩, t =>
    if t = .rbracket then .ok ⟨.continuation (.array []), fs⟩
    else beginOperand (.array [] :: fs) t
  | ⟨.firstKey, fs⟩, t =>
    if t = .rbrace then .ok ⟨.continuation (.object []), fs⟩ else beginField [] fs t
  | ⟨.key fields, fs⟩, t => beginField fields fs t
  | ⟨.colon fields k, fs⟩, t =>
    if t = .colon then .ok ⟨.operand, .object fields k :: fs⟩ else .error (.unexpectedToken t)
  | ⟨.property target, fs⟩, t =>
    match t with
    | .ident name => .ok ⟨.continuation (.member target name), fs⟩
    | _ => .error (.unexpectedToken t)
  | ⟨.continuation e, fs⟩, t => continueOperand e fs t

/-- The expression that has been read, if one is complete and nothing is open. -/
def finish : State → Except ConditionError Expr
  | ⟨.continuation e, fs⟩ =>
    match close 0 e fs with
    | (e, []) => .ok e
    | _ => .error .unexpectedEnd
  | _ => .error .unexpectedEnd

/-- Reads tokens one after the other. -/
def run (s : State) : List Token → Except ConditionError State
  | [] => .ok s
  | t :: ts =>
    match s.step t with
    | .ok s' => run s' ts
    | .error e => .error e

theorem run_append {s s' : State} {ts : List Token} (h : s.run ts = .ok s') (us : List Token) :
    s.run (ts ++ us) = s'.run us := by
  induction ts generalizing s with
  | nil =>
    cases h
    rfl
  | cons t ts ih =>
    rw [run] at h
    rw [List.cons_append, run]
    cases ht : s.step t with
    | ok s₁ =>
      rw [ht] at h
      exact ih h
    | error err =>
      rw [ht] at h
      cases h

end State

/-- The expression that a row of tokens is. -/
def Expr.ofTokens (ts : List Token) : Except ConditionError Expr :=
  match State.start.run ts with
  | .ok s => s.finish
  | .error e => .error e

end Pagewright.Condition
