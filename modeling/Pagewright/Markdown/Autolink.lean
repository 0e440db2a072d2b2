import Pagewright.Markdown.Line

/-! # `Markdown.Autolink`: addresses in angle brackets

An address that stands in angle brackets is a link to itself: one with a scheme, or a mail address.
-/

namespace Pagewright.Markdown

/-- May the character stand in a scheme? -/
def isSchemeChar (c : Char) : Bool := c.isAlphanum || c = '.' || c = '-' || c = '+'

/-- An address with a scheme of 2 to 32 characters, and what follows its closing bracket. -/
def schemeAddress? (t : Text) : Option (Text × Text) :=
  let scheme := t.takeWhile isSchemeChar
  match t.drop scheme.length, scheme with
  | ':' :: r, c :: _ =>
    let rest := r.dropWhile fun x => !(x = '>' || x = '<' || x.toNat ≤ 32)
    match rest with
    | '>' :: behind =>
      if c.isAlpha && 2 ≤ scheme.length && scheme.length ≤ 32 then
        some (scheme ++ ':' :: Text.consumed r rest, behind)
      else none
    | _ => none
  | _, _ => none

/-- May the character stand before the at sign of a mail address? -/
def isMailboxChar (c : Char) : Bool := c.isAlphanum || c ∈ ".!#$%&'*+/=?^_`\x7b|\x7d~-".toList

/-- Is the text a part of the name of a host? -/
def isHostLabel (t : Text) : Bool :=
  t.all (fun c => c.isAlphanum || c = '-') && 1 ≤ t.length && t.length ≤ 63 &&
    t.head? ≠ some '-' && t.getLast? ≠ some '-'

/-- A mail address, and what follows its closing bracket. -/
def mailAddress? (t : Text) : Option (Text × Text) :=
  let mailbox := t.takeWhile isMailboxChar
  match t.drop mailbox.length with
  | '@' :: r =>
    match Text.splitOnce? '>' r with
    | some (host, behind) =>
      if !mailbox.isEmpty && (Text.split '.' host).all isHostLabel then
        some (mailbox ++ '@' :: host, behind)
      else none
    | none => none
  | _ => none

/-- An address behind an opening bracket: whether it is a mail address, the address, and what follows. -/
def autolink? (t : Text) : Option (Bool × Text × Text) :=
  match schemeAddress? t with
  | some (address, rest) => some (false, address, rest)
  | none => (mailAddress? t).map fun (address, rest) => (true, address, rest)

end Pagewright.Markdown
