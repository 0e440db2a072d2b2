import Pagewright.Site.Basic
import Pagewright.Template.Placeholder

/-! # `Site.Resolve`: placeholders for the files of a site

`{dump('path')}` stands for the text of a file, `{collections.name.json}` for a collection as JSON, and
`{global.name}` or `{global.name.path}` for a global content or a value of its frontmatter.
-/

namespace Pagewright

variable {σ : Type} [Storage σ]

/-! ## Dumps -/

/-- What stands for a character in HTML. -/
def escapeHtmlChar (c : Char) : Text :=
  if c = '&' then "&amp;".toList
  else if c = '<' then "&lt;".toList
  else if c = '>' then "&gt;".toList
  else if c = '"' then "&quot;".toList
  else if c = '\'' then "&#039;".toList
  else [c]

/-- A text that HTML shows as it is. -/
def escapeHtml (t : Text) : Text := t.flatMap escapeHtmlChar

/-- Is the character one of the two quotes? -/
def isQuote (c : Char) : Bool := c = '\'' || c = '"'

/-- A dump: the path in it, and what follows. -/
def dump? (t : Text) : Option (Text × Text) := do
  let r ← Text.after? "\x7bdump(".toList t
  match r with
  | q :: r =>
    let path := r.takeWhile fun c => !isQuote c
    if !isQuote q || path.isEmpty then none
    else match r.dropWhile fun c => !isQuote c with
      | _ :: r => (Text.after? ")\x7d".toList r).map fun rest => (path, rest)
      | [] => none
  | [] => none

namespace Site

/-- The text of a file for a page; a file that cannot be read is empty. -/
def dumped (site : Site σ) (path : Text) : Text :=
  match Storage.read site.store ⟨path⟩ with
  | .ok t => escapeHtml t
  | .error _ => []

/-- Replaces dumps. -/
def resolveDumps (site : Site σ) : Text → Text :=
  Text.substitute fun t => (dump? t).map fun (path, rest) => (site.dumped path, rest)

end Site

/-! ## Collections -/

/-- A placeholder for a collection: its name, and what follows. -/
def collectionJson? (t : Text) : Option (Text × Text) := do
  let r ← Text.after? "\x7bcollections.".toList t
  let (inner, rest) ← Text.splitOnce? '\x7d' r
  let reversed ← Text.after? ".json".toList.reverse inner.reverse
  if reversed.isEmpty then none else some (reversed.reverse, rest)

namespace Site

/-- A collection as JSON: the one made in this run, or else the one in its file. -/
def collectionText (site : Site σ) (name : Text) : Except TemplateError Text :=
  match site.collections.get? name with
  | some items => .ok (Json.array items).compact
  | none => do
    let raw ← site.read (SitePath.collectionFile name)
    match Json.parse? raw with
    | some v => return v.compact
    | none => throw (.json (SitePath.collectionFile name))

/-- Replaces placeholders for collections. -/
def resolveCollections (site : Site σ) : Text → Except TemplateError Text :=
  Text.substituteM fun t =>
    (collectionJson? t).map fun (name, rest) => (site.collectionText name, rest)

end Site

/-! ## Global contents -/

/-- A placeholder for global contents. -/
structure GlobalReference where
  file : Text
  path : Option Text
  fallback : Option Text
deriving DecidableEq, Inhabited

/-- Can the character stand in the name of a global content? -/
def isGlobalNameChar (c : Char) : Bool := Placeholder.isPathChar c && c != '.'

/-- A placeholder for global contents at the start of a text, and what follows. -/
def GlobalReference.parse? (t : Text) : Option (GlobalReference × Text) := do
  let r ← Text.after? "\x7bglobal.".toList t
  let file := r.takeWhile isGlobalNameChar
  let r := r.dropWhile isGlobalNameChar
  if file.isEmpty then none
  else match r with
    | '.' :: r =>
      let path := r.takeWhile Placeholder.isPathChar
      if path.isEmpty then none
      else
        let (fallback, rest) ← Placeholder.tail? (r.dropWhile Placeholder.isPathChar)
        return (⟨file, some path, fallback⟩, rest)
    | _ =>
      let (fallback, rest) ← Placeholder.tail? r
      return (⟨file, none, fallback⟩, rest)

/-- Does a value count as missing? -/
def isBlankValue : Json → Bool
  | .null => true
  | .string t => t.isEmpty
  | _ => false

namespace Site

/-- What a placeholder for global contents stands for, if there is anything. -/
def globalText? (site : Site σ) (g : GlobalReference) : Option Text :=
  match Storage.read site.store (SitePath.globalFile g.file) with
  | .error _ => none
  | .ok raw =>
    match g.path with
    | none => some (stripHeader raw)
    | some path =>
      match (Document.parseLenient raw).attributes.lookup? path with
      | some v => if isBlankValue v then none else some v.display
      | none => none

/-- Replaces placeholders for global contents; those that stand for nothing are replaced by their
fallback, or by nothing. -/
def resolveGlobals (site : Site σ) : Text → Text :=
  Text.substitute fun t =>
    (GlobalReference.parse? t).map fun (g, rest) =>
      ((site.globalText? g).getD ((g.fallback.map fallbackText).getD []), rest)

/-- The value of an attribute, with placeholders for frontmatter and global contents replaced. -/
def resolveValue (site : Site σ) (frontmatter : Option Fields) (t : Text) : Text :=
  site.resolveGlobals
    (match frontmatter with
      | some fields => replaceFrontmatter fields t
      | none => t)

end Site

end Pagewright
