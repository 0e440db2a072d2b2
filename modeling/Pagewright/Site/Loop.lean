import Pagewright.Site.Collection
import Pagewright.Template.Loop

/-! # `Site.Loop`: loops over collections

Loops over contents are first turned into loops over collections (`materializeLoops`). Then each loop is
replaced by its body, once for each item (`rounds?`), and the loops in the result are expanded in turn
(`expandLoops`). As the items may hold loops themselves, this need not end: rounds that are open inside
each other take up the stack, and an expansion that uses it up has no answer (`none`).
-/

namespace Pagewright.Site

variable {σ : Type} [Storage σ]

/-! ## Loops over contents -/

/-- The name of an element as it is written. -/
def writtenName (e : Element) : Text := (e.opening.drop 1).take Loop.tag.length

/-- A loop over the collection that was made of its contents. -/
def pointAtCollection (e : Element) (name body : Text) : Text :=
  let kept := e.attributes.filter fun (k, _) => k ≠ "content".toList ∧ k ≠ "collection".toList
  let attributes := kept ++ [("collection".toList, "content/".toList ++ name)]
  Loop.openingTag (writtenName e) attributes ++ body ++ "</".toList ++ writtenName e ++ ['>']

/-- Makes the collections of all loops over contents, innermost first, and points the loops at them. -/
def materializeLoops (t : Text) : Work σ Text := do
  let parts ← (pieces Loop.tag t).attach.mapM fun ⟨p, _hp⟩ =>
    match p with
    | .text t => pure t
    | .element e =>
      match e.content with
      | none => pure e.text
      | some (_, closing) => do
        let body ← materializeLoops e.body
        match e.attribute? "content".toList with
        | none => return e.opening ++ body ++ closing
        | some name =>
          materialize name
          -- the collection is there now, under the name that the loop gets
          return pointAtCollection e name body
  return parts.flatten
termination_by t.length
decreasing_by exact length_body_lt_of_mem_pieces _hp

/-! ## The items of a loop -/

/-- The data that a loop names: a list in the frontmatter, a collection of this run, or a file. A loop
over data that is not there is left out, but the file of a collection must be readable. -/
def loopData? (site : Site σ) (frontmatter : Option Fields) (name : Text) :
    Except TemplateError (Option Json) :=
  match Text.after? "frontmatter.".toList name with
  | some key =>
    match frontmatter.bind fun fields => fields.lookup? key with
    | some (.array items) => return some (.array items)
    | _ => return none
  | none =>
    match site.collections.get? name with
    | some items => return some (.array items)
    | none => do
      let raw ← site.read (SitePath.collectionFile name)
      return Json.parse? raw

/-- The items of a loop over a collection, in their order; none when it is left out. -/
def loopItems? (site : Site σ) (frontmatter : Option Fields) (e : Element) (name : Text) :
    Except TemplateError (Option (List Json)) := do
  let data ← site.loopData? frontmatter name
  let inner := match e.attribute? "root".toList with
    | some root => data.bind fun v => v.navigate? root
    | none => data
  match inner with
  | some (.array items) =>
    let ordered := match e.attribute? "orderBy".toList with
      | some written => Loop.sortItems (.ofText written) items
      | none => items
    return some (Loop.window e ordered)
  | _ => return none

/-! ## Expansion -/

/-- What a loop stands for: its body for each of its items. A loop that is left out stands for nothing;
an element without a body or without a collection is no loop (`none`). -/
def rounds? (site : Site σ) (frontmatter : Option Fields) (e : Element) :
    Except TemplateError (Option (List Text)) :=
  match e.body?, e.attribute? "collection".toList with
  | some body, some name => do
    match ← site.loopItems? frontmatter e name with
    | some items =>
      return some (items.mapIdx fun index item =>
        Loop.renderItem body item index (Loop.aliasOf e name))
    | none => return some []
  | _, _ => return none

/-- Texts one after the other, each made of one part. The first part that fails or has no answer decides,
and those behind it are not looked at. -/
def inSequence {α ε : Type} (expand : α → Option (Except ε Text)) : List α → Option (Except ε Text)
  | [] => some (.ok [])
  | a :: rest =>
    match expand a with
    | none => none
    | some (.error err) => some (.error err)
    | some (.ok head) => (inSequence expand rest).map (Except.map (head ++ ·))

/-- What a piece of a text is replaced by, where `expand` expands the loops of a round. -/
def expandPiece (site : Site σ) (frontmatter : Option Fields)
    (expand : Text → Option (Except TemplateError Text)) : Piece → Option (Except TemplateError Text)
  | .text t => some (.ok t)
  | .element e =>
    match site.rounds? frontmatter e with
    | .error err => some (.error err)
    | .ok none => some (.ok e.text)
    | .ok (some texts) => inSequence expand texts

/-- Expands the loops of a text, and those that come out of them; so many rounds may be open inside each
other. -/
def expandLoopsWithin (site : Site σ) (frontmatter : Option Fields) :
    Nat → Text → Option (Except TemplateError Text)
  | 0, t => inSequence (site.expandPiece frontmatter fun _ => none) (pieces Loop.tag t)
  | n + 1, t =>
    inSequence (site.expandPiece frontmatter (site.expandLoopsWithin frontmatter n)) (pieces Loop.tag t)

/-- Expands the loops of a text. There is always room for the rounds of the loops in it. -/
def expandLoops (site : Site σ) (frontmatter : Option Fields) (t : Text) :
    Option (Except TemplateError Text) :=
  site.expandLoopsWithin frontmatter (site.stack + 1) t

end Pagewright.Site
