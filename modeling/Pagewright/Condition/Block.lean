import Pagewright.Condition.Eval
import Pagewright.Template.Element
import Pagewright.Template.Placeholder

/-! # `Condition.Block`: parts of a document that depend on a condition

`<If condition="…">body</If>` stands for its body when the condition holds in the scope, and for nothing
when it does not or has no value. Placeholders in the condition are first replaced by literals of the
values that they name. A block without a condition stays as it is.
-/

namespace Pagewright.Condition

/-- A value as it is written in a condition. -/
def literal (v : Json) : Text := v.compact

/-- Replaces `{name.path}` in a condition by the literal of the value at the path, else by the fallback
in quotes, else by `undefined`. -/
def inlinePlaceholders (scopeName : Text) (scope : Fields) : Text → Text :=
  Text.substitute fun t =>
    match Placeholder.parse? (Placeholder.scopeOpening scopeName) Placeholder.isPathChar t with
    | some (path, written, rest) =>
      match scope.lookup? path with
      | some v => some (literal v, rest)
      | none =>
        match written with
        | some w => some (literal (.string (fallbackText w)), rest)
        | none => some ("undefined".toList, rest)
    | none => none

/-- Does a condition as written in a block hold? One that has no value does not. -/
def holds (condition : Text) (scope : Fields) (scopeName : Text) : Bool :=
  match evaluate (inlinePlaceholders scopeName scope condition) scope scopeName with
  | .ok b => b
  | .error _ => false

/-- Resolves all blocks of a document, those inside the bodies of others too. -/
def resolveBlocks (scope : Fields) (scopeName : Text) (t : Text) : Text :=
  (pieces "If".toList t).attach.flatMap fun ⟨p, _hp⟩ =>
    match p with
    | .text t => t
    | .element e =>
      match e.attribute? "condition".toList with
      | none => e.text
      | some c => if holds c scope scopeName then resolveBlocks scope scopeName e.body else []
termination_by t.length
decreasing_by exact length_body_lt_of_mem_pieces _hp

end Pagewright.Condition
