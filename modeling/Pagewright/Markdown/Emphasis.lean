import Pagewright.Markdown.Mark

/-! # `Markdown.Emphasis`: which rows begin and end an emphasis

Running text comes as `Piece`s: finished pieces, and rows of stars, underscores and tildes. `resolveRows` goes
through them from left to right and keeps the rows that may still begin an emphasis as a stack of `Opener`s.
A row that can end one looks for the innermost opener that fits it; of the rows, two characters make a strong
emphasis and one a plain one, from the inside out.
-/

namespace Pagewright.Markdown

/-- A piece of running text whose rows are not resolved. -/
inductive Piece where
  | done (i : Inline)
  | row (c : Char) (length : Nat) (opens closes : Bool)
deriving Inhabited

/-- A row that may begin an emphasis, and what was read behind it. -/
structure Opener where
  c : Char
  /-- How many of its characters are left. -/
  left : Nat
  /-- How many there were. -/
  length : Nat
  /-- Could the row have ended an emphasis, too? -/
  both : Bool
  /-- The pieces behind it, the latest first. -/
  behind : List Inline
deriving Inhabited

/-- What was read of a running text. -/
structure Emphases where
  /-- The rows that may begin an emphasis, the innermost first. -/
  openers : List Opener
  /-- The pieces before them, the latest first. -/
  before : List Inline
  /-- Tildes do not look below so many openers. -/
  tildeBound : Nat
deriving Inhabited

/-- What a row is if it means nothing. -/
def rowText (c : Char) (n : Nat) : List Inline := if n = 0 then [] else [.text (List.replicate n c)]

/-- Does a row of length `n` end the emphasis that an opener begins? -/
def Opener.fits (o : Opener) (c : Char) (n : Nat) (both : Bool) : Bool :=
  -- if either row could do both, their lengths may add up to a multiple of three only when each is one
  o.c = c && (c ≠ '~' || n = o.length) &&
    (!both && !o.both || (n + o.length) % 3 ≠ 0 || n % 3 = 0)

/-- The emphases that `n` characters on each side make of pieces. -/
def wrap (c : Char) : Nat → List Inline → List Inline
  | 0, inner => inner
  | 1, inner => if c = '~' then [.strikethrough inner] else [.emphasis inner]
  | n + 2, inner => wrap c n [if c = '~' then .strikethrough inner else .strong inner]

/-- The openers around the innermost one that fits: what was read behind it, the latest first, the opener
and those outside of it. -/
def findOpener? (c : Char) (n : Nat) (both : Bool) (bound : Nat) :
    List Opener → Option (List Inline × Opener × List Opener)
  | [] => none
  | o :: outer =>
    if c = '~' && outer.length < bound then none
    else if o.fits c n both then some (o.behind, o, outer)
    else (findOpener? c n both bound outer).map fun (behind, found, rest) =>
      (o.behind ++ rowText o.c o.left ++ behind, found, rest)

namespace Emphases

/-- What is known at the start. -/
def start : Emphases := ⟨[], [], 0⟩

/-- Puts pieces, the latest first, behind the others. -/
def append (e : Emphases) (pieces : List Inline) : Emphases :=
  match e.openers with
  | [] => { e with before := pieces ++ e.before }
  | o :: outer => { e with openers := { o with behind := pieces ++ o.behind } :: outer }

/-- Ends emphases with a row of which `left` characters are left; how many are left then. The first number
bounds the emphases. -/
def close (c : Char) (n : Nat) (both : Bool) : Nat → Nat → Emphases → Nat × Emphases
  | 0, left, e => (left, e)
  | fuel + 1, left, e =>
    if left = 0 then (0, e)
    else match findOpener? c n both e.tildeBound e.openers with
      -- a later row of tildes need not look here again
      | none => (left, if c = '~' then { e with tildeBound := e.openers.length } else e)
      | some (behind, o, outer) =>
        let used := min left o.left
        let made := wrap c used behind.reverse
        let e := { e with openers := outer, tildeBound := min e.tildeBound outer.length }
        let e :=
          -- what is left of the opener may begin another emphasis around this one
          if used < o.left then
            { e with openers := { o with left := o.left - used, behind := made } :: outer }
          else e.append made
        close c n both fuel (left - used) e

/-- Reads a piece. -/
def read (e : Emphases) : Piece → Emphases
  | .done i => e.append [i]
  | .row c n opens closes =>
    let (left, e) := if closes then close c n (opens && closes) (n + 1) n e else (n, e)
    if left = 0 then e
    else if opens then { e with openers := ⟨c, left, n, opens && closes, []⟩ :: e.openers }
    else e.append (rowText c left)

/-- All that was read, the latest first; the openers that are left mean nothing. -/
def all (e : Emphases) : List Inline :=
  e.openers.flatMap (fun o => o.behind ++ rowText o.c o.left) ++ e.before

end Emphases

/-- Resolves the rows in running text. -/
def resolveRows (pieces : List Piece) : List Inline :=
  (pieces.foldl Emphases.read .start).all.reverse

end Pagewright.Markdown
