import Pagewright.Json.Basic
import Pagewright.Markdown.Event
import Pagewright.Markdown.Slug

/-! # `Markdown.Heading`: the headings of a document

`headings` finds the headings in a list of events and gives each a slug of its own. They are the names under
which the rendered headings can be linked to (`named`), and the entries of the table of contents.
-/

namespace Pagewright.Markdown

/-- A heading in a list of events. -/
structure Heading where
  /-- Where in the list it opens. -/
  index : Nat
  level : Nat
  /-- Its text and code, without blanks at the two ends. -/
  text : Text
  slug : Text
  /-- How many headings before it would have the same slug. -/
  seen : Nat
deriving DecidableEq, Inhabited

/-- The heading that events are within: where it opened, its level and its text so far. -/
abbrev OpenHeading := Option (Nat × Nat × Text)

/-- The headings in a list of events, the first of which has the given index. -/
def headingsFrom (index : Nat) (current : OpenHeading) (slugs : Slugger) : List Event → List Heading
  | [] => []
  | e :: rest =>
    match e with
    | .opens (.heading level _) => headingsFrom (index + 1) (some (index, level, [])) slugs rest
    | .text t =>
      headingsFrom (index + 1) (current.map fun (i, level, s) => (i, level, s ++ t)) slugs rest
    | .code t =>
      headingsFrom (index + 1) (current.map fun (i, level, s) => (i, level, s ++ t)) slugs rest
    | .closes (.heading _ _) =>
      match current with
      | some (i, level, s) =>
        let text := Text.trim s
        let (slug, seen, slugs) := slugs.unique text
        ⟨i, level, text, slug, seen⟩ :: headingsFrom (index + 1) none slugs rest
      | none => headingsFrom (index + 1) none slugs rest
    | _ => headingsFrom (index + 1) current slugs rest

/-- The headings in a list of events. -/
def headings (es : List Event) : List Heading := headingsFrom 0 none .empty es

/-- An event that opens a heading, with a name for links. -/
def Event.withId (id : Text) : Event → Event
  | .opens (.heading level _) => .opens (.heading level (some id))
  | e => e

/-- Events whose headings have their slugs as names for links. -/
def named (es : List Event) : List Event :=
  (headings es).foldl (fun es h => es.modify h.index (Event.withId h.slug)) es

/-! ## The table of contents -/

/-- An entry of a table of contents. -/
structure TocEntry where
  content : Text
  slug : Text
  level : Nat
  /-- The number of headings before it. -/
  position : Nat
  seen : Nat
deriving DecidableEq, Inhabited

/-- An entry as pages get it; its fields keep this order. -/
def TocEntry.toJson (e : TocEntry) : Json :=
  let number := fun (n : Nat) => Json.number (.int n)
  .object [("content".toList, .string e.content), ("slug".toList, .string e.slug),
    ("lvl".toList, number e.level), ("i".toList, number e.position), ("seen".toList, number e.seen)]

/-- The entries for the headings of a document. -/
def tocEntries (t : Text) : List TocEntry :=
  (headings (events t)).zipIdx.map fun (h, i) => ⟨h.text, h.slug, h.level, i, h.seen⟩

/-- A line of a table of contents, indented by two blanks for each level below the least. -/
def TocEntry.line (least : Nat) (e : TocEntry) : Text :=
  List.replicate (2 * (e.level - least)) ' ' ++ "- [".toList ++ e.content ++ "](#".toList ++ e.slug ++ [')']

/-- A table of contents as a list with links to the headings. -/
def tocMarkdown (entries : List TocEntry) : Text :=
  let least := ((entries.map (·.level)).min?).getD 1
  Text.join ['\n'] (entries.map (TocEntry.line least))

end Pagewright.Markdown
