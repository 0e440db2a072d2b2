import Pagewright.Json.Display

/-! # `Template.Placeholder`: names in braces

A placeholder is `{name}` or `{name or fallback}`. The dialects differ in what stands before the name
and in which characters the name may have; each dialect replaces the placeholders of its own and leaves
all others as they are. What is put in for a placeholder is not read again.
-/

namespace Pagewright

/-- What a missing value is replaced by, if the placeholder says so. Of the text behind the `or`, white
space around it does not count, `null` means nothing, and quotes are taken off. -/
def fallbackText (written : Text) : Text :=
  let t := Text.trim written
  let isQuote (c : Char) : Bool := c = '\'' || c = '"'
  if t = "null".toList then []
  else match t with
    | c :: d :: r =>
      if isQuote c && isQuote ((d :: r).getLast (by simp)) then (d :: r).dropLast else t
    | _ => t

namespace Placeholder

/-! ## Reading -/

/-- The end of a placeholder after its name: the closing brace, or white space, the word `or`, white
space, the text of the fallback and the brace. Between the word and the brace there are at least two
characters, the first one blank. -/
def tail? (t : Text) : Option (Option Text × Text) :=
  match t with
  | [] => none
  | c :: r =>
    if c = '\x7d' then some (none, r)
    else if Text.isBlank c then
      match Text.trimStart r with
      | 'o' :: 'r' :: s =>
        match Text.splitOnce? '\x7d' s with
        | some (b :: x :: written, rest) =>
          if Text.isBlank b then some (some (x :: written), rest) else none
        | _ => none
      | _ => none
    else none

/-- Can the character stand in the path of a placeholder? -/
def isPathChar (c : Char) : Bool := c != '\x7d' && c != '|' && !Text.isBlank c

/-- Can the character stand in a bare name? -/
def isBareChar (c : Char) : Bool := isPathChar c && c != '.' && c != '('

/-- A placeholder: its opening, then a name of the given characters, then its end. The name, the text of
the fallback and the text behind the placeholder. -/
def parse? (opening : Text) (isNameChar : Char → Bool) (t : Text) :
    Option (Text × Option Text × Text) := do
  let r ← Text.after? opening t
  let name := r.takeWhile isNameChar
  if name.isEmpty then none
  else
    let (written, rest) ← tail? (r.dropWhile isNameChar)
    return (name, written, rest)

/-- What a placeholder begins with when its names belong to a scope of the given name. -/
def scopeOpening (scopeName : Text) : Text := '\x7b' :: scopeName ++ ['.']

/-- Replaces the placeholders of a kind by what is found for their names, else by their fallback; one
that has neither stays as it is. -/
def replace (opening : Text) (isNameChar : Char → Bool)
    (value : Text → Option Text) : Text → Text :=
  Text.substitute fun t =>
    match parse? opening isNameChar t with
    | some (name, written, rest) =>
      match value name, written with
      | some v, _ => some (v, rest)
      | none, some w => some (fallbackText w, rest)
      | none, none => some (Text.consumed t rest, rest)
    | none => none

end Placeholder

/-! ## The dialects -/

open Placeholder

/-- Replaces `{name}` and `{name or …}` by a value. -/
def replaceNamed (name value : Text) : Text → Text :=
  Text.substitute fun t =>
    match Text.after? ('\x7b' :: name) t with
    | some r => (tail? r).map fun (_, rest) => (value, rest)
    | none => none

/-- Bare names that later stages fill in. -/
def reservedNames : List Text :=
  ["slot".toList, "content".toList, "tailwindcss".toList, "static_content_element".toList]

/-- Replaces bare placeholders by their fallback; reserved names and placeholders without a fallback
stay as they are. -/
def sweepBare : Text → Text :=
  Text.substitute fun t =>
    match parse? ['\x7b'] isBareChar t with
    | some (name, written, rest) =>
      match written with
      | some w =>
        some (if name ∈ reservedNames then Text.consumed t rest else fallbackText w, rest)
      | none => some (Text.consumed t rest, rest)
    | none => none

/-- Replaces `{name.path}` by the value at the path in a scope, else by the fallback. -/
def replaceScoped (scopeName : Text) (scope : Fields) : Text → Text :=
  replace (scopeOpening scopeName) isPathChar fun path => (scope.lookup? path).map Json.display

/-- Replaces `{frontmatter.path}` by the value at the path in the frontmatter, else by the fallback. -/
def replaceFrontmatter (frontmatter : Fields) : Text → Text :=
  replaceScoped "frontmatter".toList frontmatter

end Pagewright
