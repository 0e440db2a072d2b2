import Pagewright.Frontmatter.Split
import Pagewright.Yaml.Value

/-! # `Frontmatter.Document`: a document and what its header says

The header of a document is a YAML mapping, the frontmatter. A header that is blank or no mapping says
nothing; one that is no YAML at all is an error (`Document.parse?`), or is passed over where a broken
document must not stop the others (`Document.parseLenient`).
-/

namespace Pagewright

/-- A document: its frontmatter and the text after the header. -/
structure Document where
  attributes : Fields
  body : Text
deriving Inhabited

namespace Document

/-- What a header says, if it is YAML. -/
def attributes? (header : Text) : Option Fields :=
  if (Text.trim header).isEmpty then some []
  else match Yaml.value? header with
    | some (.object fields) => some fields
    | some _ => some []
    | none => none

/-- The document that a text holds, unless its header is no YAML. -/
def parse? (t : Text) : Option Document :=
  match splitHeader t with
  | (some header, body) => (attributes? header).map fun fields => ⟨fields, body⟩
  | (none, body) => some ⟨[], body⟩

/-- The document that a text holds; a header that is no YAML says nothing. -/
def parseLenient (t : Text) : Document := (parse? t).getD ⟨[], (splitHeader t).2⟩

/-- Reading leniently gives what reading gives, where that succeeds. -/
theorem parseLenient_of_parse? {t : Text} {d : Document} (h : parse? t = some d) :
    parseLenient t = d := by
  simp [parseLenient, h]

/-- However a document is read, its body is what follows the header. -/
theorem body_parseLenient (t : Text) : (parseLenient t).body = (splitHeader t).2 := by
  rcases h : splitHeader t with ⟨_ | header, body⟩
  · simp [parseLenient, parse?, h]
  · cases hp : attributes? header <;> simp [parseLenient, parse?, h, hp]

end Document

end Pagewright
