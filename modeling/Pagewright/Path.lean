import Pagewright.Text.Basic

/-! # `Path`: names of files and directories

A path keeps the text it was written with, since messages and lists show it. Two paths name the same file
when they have the same components (`Path.same`): doubled separators, a separator at the end and segments
of one dot do not count, except for a dot at the very start. `..` is a component like any other.
-/

namespace Pagewright

/-- A path as it was written. -/
structure Path where
  text : Text
deriving DecidableEq, Inhabited

namespace Path

/-- A part of a path. -/
inductive Component
  | root
  | current
  | parent
  | name (text : Text)
deriving DecidableEq, Inhabited

namespace Component

/-- How a component is written. -/
def text : Component → Text
  | root => ['/']
  | current => ['.']
  | parent => ['.', '.']
  | name t => t

/-- Where the kind of a component stands in the order of paths. -/
def rank : Component → Nat
  | root => 0
  | current => 1
  | parent => 2
  | name _ => 3

/-- The order of components: by kind, names by code points. -/
def compare (a b : Component) : Ordering :=
  (Ord.compare a.rank b.rank).then (Text.compare a.text b.text)

end Component

/-! ## Components -/

/-- Does a segment between separators not count? -/
def isFiller (segment : Text) : Bool := segment = [] || segment = ['.']

/-- What a segment means that counts. -/
def ofSegment (segment : Text) : Component :=
  if segment = ['.', '.'] then .parent else .name segment

/-- What a path begins with, if that is a separator or a single dot, and the segments behind it. -/
def segments (p : Path) : Option Component × List Text :=
  match p.text with
  | '/' :: r => (some .root, Text.split '/' r)
  | ['.'] => (some .current, [])
  | '.' :: '/' :: r => (some .current, Text.split '/' ('/' :: r))
  | t => (none, Text.split '/' t)

/-- The path with the given beginning and segments. -/
def ofSegments (start : Option Component) (segments : List Text) : Path :=
  ⟨(start.map Component.text).getD [] ++ Text.join ['/'] segments⟩

/-- The components of a path. -/
def components (p : Path) : List Component :=
  p.segments.1.toList ++ (p.segments.2.filter (!isFiller ·)).map ofSegment

/-- Do two paths name the same file? -/
def same (p q : Path) : Bool := p.components = q.components

/-- The order of paths: component by component, a path before those below it. -/
def compare (p q : Path) : Ordering :=
  let rec go : List Component → List Component → Ordering
    | [], [] => .eq
    | [], _ :: _ => .lt
    | _ :: _, [] => .gt
    | a :: s, b :: t => (a.compare b).then (go s t)
  go p.components q.components

/-- Does another path begin with all components of this one? -/
def isPrefixOf (base p : Path) : Bool := base.components.isPrefixOf p.components

/-- Is the path written from the root? -/
def isAbsolute (p : Path) : Bool := p.text.head? = some '/'

/-! ## Building -/

/-- A path below another one; an absolute path stands for itself. -/
def join (base p : Path) : Path :=
  if p.isAbsolute then p
  else if base.text.isEmpty || base.text.getLast? = some '/' then ⟨base.text ++ p.text⟩
  else ⟨base.text ++ '/' :: p.text⟩

/-- A path below another one, given by its text. -/
def joinText (base : Path) (t : Text) : Path := base.join ⟨t⟩

/-! ## Taking apart -/

/-- The segments without those at the end that do not count. -/
def dropFillerAtEnd (segments : List Text) : List Text :=
  (segments.reverse.dropWhile isFiller).reverse

/-- The path without its last component; nothing is above the root or above no component at all. -/
def parent? (p : Path) : Option Path :=
  match (dropFillerAtEnd p.segments.2).reverse, p.segments.1 with
  | _ :: before, start => some (ofSegments start (dropFillerAtEnd before.reverse))
  | [], some .current => some ⟨[]⟩
  | [], _ => none

/-- The last component, if it is a name. -/
def fileName? (p : Path) : Option Text :=
  match p.components.getLast? with
  | some (.name t) => some t
  | _ => none

/-- A name before and behind its last dot. A dot at the start of a name does not count. -/
def splitName (name : Text) : Text × Option Text :=
  match Text.splitOnce? '.' name.reverse with
  | some (after, before) =>
    if before.isEmpty then (name, none) else (before.reverse, some after.reverse)
  | none => (name, none)

/-- The name of the file without its extension. -/
def stem? (p : Path) : Option Text := p.fileName?.map fun name => (splitName name).1

/-- The extension of the file, which is what stands behind the last dot of its name. -/
def extension? (p : Path) : Option Text := p.fileName?.bind fun name => (splitName name).2

/-- Puts an extension behind the stem of the file; an empty one leaves only the stem. -/
def setExtension (extension : Text) (p : Path) : Path :=
  match p.stem? with
  | some stem =>
    let name := if extension.isEmpty then stem else stem ++ '.' :: extension
    ofSegments p.segments.1 ((dropFillerAtEnd p.segments.2).dropLast ++ [name])
  | none => p

/-- The path with another extension. The old one is taken off first; where that leaves no name, none is
put on. -/
def withExtension (extension : Text) (p : Path) : Path :=
  match p.extension? with
  | some old => setExtension extension ⟨p.text.take (p.text.length - old.length)⟩
  | none => setExtension extension p

/-- The segments behind the first `n` that count. -/
def dropSegments : Nat → List Text → List Text
  | 0, segments => segments.dropWhile isFiller
  | n + 1, segments => dropSegments n ((segments.dropWhile isFiller).drop 1)

/-- What is left of a path when the components of another one are taken off its start. -/
def relativeTo? (p base : Path) : Option Path :=
  if base.isPrefixOf p then
    match base.components.length, p.segments with
    | 0, (start, segments) => some (ofSegments start (dropFillerAtEnd segments))
    | n, (start, segments) =>
      some (ofSegments none (dropFillerAtEnd (dropSegments (n - start.toList.length) segments)))
  else none

/-- The path relative to another one, or as it is when it does not begin with that one. -/
def relativeTo (p base : Path) : Path := (p.relativeTo? base).getD p

end Path

end Pagewright
