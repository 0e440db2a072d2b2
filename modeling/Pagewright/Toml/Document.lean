import Pagewright.Toml.Value

/-! # `Toml.Document`: a document in TOML

A document is read line by line. A line gives a key a value, opens a table by its heading, or opens the next
of the tables of a heading in double brackets. The keys after a heading belong to its table.
-/

namespace Pagewright.Toml

/-- What was read of a document: its entries, and the heading that the next keys belong to. -/
structure Draft where
  entries : Entries
  heading : List Text
deriving Inhabited

/-- What follows blanks and a comment up to the end of a line. -/
def afterLine? (t : Text) : Option Text :=
  match skipBlanks t with
  | [] => some []
  | '#' :: r =>
    let behind := r.dropWhile isPlain
    if behind.isEmpty then some [] else afterBreak? behind
  | r => afterBreak? r

namespace Draft

/-- Gives a key a value. -/
def readPair (d : Draft) (t : Text) : Option (Draft × Text) := do
  let (keys, rest) ← keys? t.length t
  let afterSign ← Text.after? ['='] rest
  let own := skipBlanks afterSign
  let (v, rest) ← value? (own.length + 1) own
  let (path, key) := splitKeys keys
  let entries ← d.entries.within false (fun kind inner => Entries.insert path key v kind inner) d.heading
    .explicit
  return ({ d with entries }, rest)

/-- Opens a table by its heading, which is read from behind its bracket. -/
def readHeading (d : Draft) (t : Text) : Option (Draft × Text) := do
  let (keys, rest) ← keys? t.length (skipBlanks t)
  let rest ← Text.after? [']'] rest
  let (path, key) := splitKeys keys
  let entries ← d.entries.openTable path key
  return (⟨entries, keys⟩, rest)

/-- Opens the next of the tables of a heading, which is read from behind its brackets. -/
def readNext (d : Draft) (t : Text) : Option (Draft × Text) := do
  let (keys, rest) ← keys? t.length (skipBlanks t)
  let rest ← Text.after? [']', ']'] rest
  let (path, key) := splitKeys keys
  let entries ← d.entries.openNext path key
  return (⟨entries, keys⟩, rest)

/-- Reads a line; what follows it. -/
def readLine (d : Draft) (t : Text) : Option (Draft × Text) := do
  let (d, rest) ← match skipBlanks t with
    | [] => some (d, [])
    | '#' :: r => some (d, '#' :: r)
    | '\n' :: r => some (d, '\n' :: r)
    | '\r' :: r => some (d, '\r' :: r)
    | '[' :: '[' :: r => d.readNext r
    | '[' :: r => d.readHeading r
    | r => d.readPair r
  return (d, ← afterLine? rest)

/-- Reads lines; the number bounds how many there are. -/
def readAll : Nat → Draft → Text → Option Draft
  | _, d, [] => some d
  | 0, _, _ :: _ => none
  | fuel + 1, d, c :: r => do
    let (d, rest) ← d.readLine (c :: r)
    readAll fuel d rest

end Draft

/-- The entries of a document. -/
def document? (t : Text) : Option (List (Text × Value)) :=
  let t := match t with
    | '\ufeff' :: r => r
    | _ => t
  (Draft.readAll t.length ⟨[], []⟩ t).map fun d => entriesToValues d.entries

end Pagewright.Toml
