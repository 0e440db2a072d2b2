import Pagewright.Text.Alphanumeric
import Pagewright.Text.Lowercase

/-! # `Markdown.Slug`: names for headings

`slugify` makes a heading into a name for links: letters and numbers in lower case, with single dashes
for blanks, dashes and underscores between them. A `Slugger` hands out these names for one document so
that none is given twice: a name that occurred before gets the number of its earlier occurrences, or
the next higher number that is free.
-/

namespace Pagewright.Markdown

/-! ## The slug of a text -/

/-- Does the character separate the words of a slug? -/
def isSeparator (c : Char) : Bool := Text.isBlank c || c = '-' || c = '_'

/-- The words of a text in lower case, with a dash for each row of separators; the flag says that no
dash may come next. -/
def slugFrom : Bool → Text → Text
  | _, [] => []
  | afterDash, c :: r =>
    if Text.isAlphanumeric c then Text.lower c ++ slugFrom false r
    else if !afterDash && isSeparator c then '-' :: slugFrom true r
    else slugFrom afterDash r

/-- A text without a dash at its end. -/
def dropFinalDash (t : Text) : Text := if t.getLast? = some '-' then t.dropLast else t

/-- The slug of a text. -/
def slugify (t : Text) : Text := dropFinalDash (slugFrom true (Text.trim t))

/-! ## Different slugs for different headings -/

/-- The slugs of the headings so far. -/
structure Slugger where
  /-- How often each slug was asked for. -/
  counts : List (Text × Nat)
  /-- The slugs that were given out. -/
  issued : List Text
deriving Inhabited

namespace Slugger

/-- No heading yet. -/
def empty : Slugger := ⟨[], []⟩

/-- How often a slug was asked for. -/
def count (s : Slugger) (base : Text) : Nat := (s.counts.lookup base).getD 0

/-- The slug with a number; zero is not written. -/
def numbered (base : Text) (n : Nat) : Text :=
  if n = 0 then base else base ++ '-' :: Text.ofNat n

/-- The first number, from a given one on, that makes the slug a new one. Among as many numbers as there
are slugs given out, and one more, there is always one. -/
def firstFree (issued : List Text) (base : Text) (n : Nat) : Nat → Nat
  | 0 => n
  | fuel + 1 => if numbered base n ∈ issued then firstFree issued base (n + 1) fuel else n

/-- The slug of a heading, how often its base occurred before, and the slugs given out then. -/
def unique (s : Slugger) (heading : Text) : Text × Nat × Slugger :=
  let base := slugify heading
  let seen := s.count base
  let slug := numbered base (firstFree s.issued base seen (s.issued.length + 1))
  (slug, seen, ⟨(base, seen + 1) :: s.counts, slug :: s.issued⟩)

end Slugger

end Pagewright.Markdown
