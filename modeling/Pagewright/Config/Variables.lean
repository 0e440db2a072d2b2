import Pagewright.Text.Alphanumeric
import Pagewright.Text.Basic

/-! # `Config.Variables`: variables of the environment in texts

`${NAME}` stands for a variable and `${NAME:-default}` for a variable or, where there is none, for a default;
`$NAME` is the first form without braces, and `$$` a dollar sign. A variable that is not set is an error.
-/

namespace Pagewright.Config

/-- The variables of the environment. -/
abbrev Environment := List (Text × Text)

/-- May the character stand in a name without braces? -/
def isVariableChar (c : Char) : Bool := Text.isAlphanumeric c || c = '_'

/-- The name between braces, and the default behind it. A default needs a name before it. -/
def splitDefault (inner : Text) : Text × Option Text :=
  match Text.splitFirst? [':', '-'] inner with
  | some (name, default) => if name.isEmpty then (inner, none) else (name, some default)
  | none => (inner, none)

/-- The value of a variable, or its name if it is not set. -/
def requireVariable (env : Environment) (name : Text) : Except Text Text :=
  match env.lookup name with
  | some value => .ok value
  | none => .error name

/-- What stands for the text between braces. -/
def reference? (env : Environment) (inner : Text) : Except Text Text :=
  match splitDefault inner with
  | (name, some default) => .ok ((env.lookup name).getD default)
  | (name, none) => requireVariable env name

/-- What stands for the reference at the start of a text, and what follows it. -/
def readReference? (env : Environment) : Text → Option (Except Text Text × Text)
  | '$' :: '\x7b' :: r =>
    match Text.splitOnce? '\x7d' r with
    | some (inner, rest) => some (reference? env inner, rest)
    | none => some (.ok ['$', '\x7b'], r)
  | '$' :: '$' :: r => some (.ok ['$'], r)
  | '$' :: c :: r =>
    if isVariableChar c then
      some (requireVariable env ((c :: r).takeWhile isVariableChar), (c :: r).dropWhile isVariableChar)
    else none
  | _ => none

/-- A text with the variables in it replaced, or the name of one that is not set. -/
def expandVariables (env : Environment) (t : Text) : Except Text Text :=
  Text.substituteM (readReference? env) t

/-- Replaces the variables in a text, if one of them is written with braces. -/
def expandField (env : Environment) (t : Text) : Except Text Text :=
  if Text.contains ['$', '\x7b'] t then expandVariables env t else .ok t

end Pagewright.Config
