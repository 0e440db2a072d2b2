import Pagewright.Yaml.Token

/-! # `Yaml.Node`: the tree of a YAML text

A node is a scalar, a sequence, a mapping or a reference to a node that an anchor names (`Node`). Each
anchor gets a number, which is the number of different names that came before it; the same name may be
given again, and a reference means the latest one. `Node.ofTokens?` builds the tree of a text that holds one
document.
-/

namespace Pagewright.Yaml

/-- What may stand before a node. -/
structure Properties where
  /-- The number of its anchor. -/
  anchor : Option Nat
  /-- Its tag, written out. -/
  tag : Option Text
deriving DecidableEq, Inhabited

/-- A node without anchor and tag. -/
def Properties.none : Properties := ⟨.none, .none⟩

/-- A node of a document. -/
inductive Node
  | reference (target : Nat)
  | scalar (properties : Properties) (text : Text) (plain : Bool)
  | sequence (properties : Properties) (items : List Node)
  | mapping (properties : Properties) (fields : List (Node × Node))
deriving Inhabited

namespace Node

/-- The node that stands where nothing is written. -/
def empty : Node := .scalar .none [] true

/-! ## Reading -/

/-- What is known while nodes are read. -/
structure Reader where
  tokens : List Token
  /-- What the handles of tags stand for. -/
  handles : List (Text × Text)
  /-- The names of anchors with their numbers, the latest first. -/
  anchors : List (Text × Nat)

/-- Reading of a part of the tokens, which can fail. -/
abbrev Read := StateT Reader Option

/-- The next token. -/
def peek : Read Token := return (← get).tokens.headD .streamEnd

/-- Skips the next token. -/
def advance : Read Unit := modify fun r => { r with tokens := r.tokens.tail }

/-- Skips the next token, which must be the given one. -/
def expect (t : Token) : Read Unit := do
  if (← peek) = t then advance else failure

/-- Gives an anchor its number. -/
def nameAnchor (name : Text) : Read Nat := do
  let r ← get
  let n := (r.anchors.map Prod.fst).eraseDups.length
  set { r with anchors := (name, n) :: r.anchors }
  return n

/-- The number that a name stands for. -/
def anchorNumber (name : Text) : Read Nat := do
  match (← get).anchors.lookup name with
  | some n => return n
  | none => failure

/-- The tag that a handle and a suffix stand for. -/
def expandTag (handle suffix : Text) : Read Text := do
  if handle.isEmpty then return suffix
  else match (← get).handles.lookup handle with
    | some expansion => return expansion ++ suffix
    | none => failure

/-- The anchor and the tag before a node, in either order, each at most once. -/
def properties : Read Properties := do
  match ← peek with
  | .anchor name =>
    advance
    match ← peek with
    | .tag handle suffix =>
      advance
      let tag ← expandTag handle suffix
      return ⟨some (← nameAnchor name), some tag⟩
    | _ => return ⟨some (← nameAnchor name), none⟩
  | .tag handle suffix =>
    advance
    match ← peek with
    | .anchor name =>
      advance
      let tag ← expandTag handle suffix
      return ⟨some (← nameAnchor name), some tag⟩
    | _ => return ⟨none, some (← expandTag handle suffix)⟩
  | _ => return .none

/-- The properties of a scalar: the tag of one exclamation mark says nothing about it. -/
def Properties.ofScalar (p : Properties) : Properties :=
  if p.tag = some ['!'] then { p with tag := .none } else p

mutual

/-- A node. Blocks begin only where one is allowed, and a list that is not indented only as the key or
the value of a block mapping. -/
def node (fuel : Nat) (block indentless : Bool) : Read Node := do
  match fuel with
  | 0 => failure
  | fuel + 1 =>
    match ← peek with
    | .reference name =>
      advance
      return .reference (← anchorNumber name)
    | _ =>
      let p ← properties
      match ← peek with
      | .scalar text plain =>
        advance
        return .scalar (Properties.ofScalar p) text plain
      | .sequenceOpen =>
        advance
        return .sequence p (← flowItems fuel true)
      | .mappingOpen =>
        advance
        return .mapping p (← flowFields fuel true)
      | t =>
        if t = .entry && indentless then return .sequence p (← plainItems fuel)
        else if t = .sequenceBlock && block then
          advance
          return .sequence p (← blockItems fuel)
        else if t = .mappingBlock && block then
          advance
          return .mapping p (← blockFields fuel)
        else if p = .none then failure
        else return .scalar p [] true

/-- A node, or the empty one before a token that cannot begin one. -/
def nodeBefore (fuel : Nat) (ends : List Token) (block indentless : Bool) : Read Node := do
  match fuel with
  | 0 => failure
  | fuel + 1 =>
    if (← peek) ∈ ends then return empty else node fuel block indentless

/-- The items of a block sequence. -/
def blockItems (fuel : Nat) : Read (List Node) := do
  match fuel with
  | 0 => failure
  | fuel + 1 =>
    match ← peek with
    | .entry =>
      advance
      let item ← nodeBefore fuel [.entry, .blockEnd] true false
      return item :: (← blockItems fuel)
    | _ =>
      expect .blockEnd
      return []

/-- The items of a sequence that is not indented; whatever is no item ends it. -/
def plainItems (fuel : Nat) : Read (List Node) := do
  match fuel with
  | 0 => failure
  | fuel + 1 =>
    match ← peek with
    | .entry =>
      advance
      let item ← nodeBefore fuel [.entry, .key, .value, .blockEnd] true false
      return item :: (← plainItems fuel)
    | _ => return []

/-- The fields of a block mapping. -/
def blockFields (fuel : Nat) : Read (List (Node × Node)) := do
  match fuel with
  | 0 => failure
  | fuel + 1 =>
    match ← peek with
    | .key =>
      advance
      let key ← nodeBefore fuel [.key, .value, .blockEnd] true true
      let value ← fieldValue fuel [.key, .value, .blockEnd] true
      return (key, value) :: (← blockFields fuel)
    | _ =>
      expect .blockEnd
      return []

/-- The value of a field, empty when there is no mark before one. -/
def fieldValue (fuel : Nat) (ends : List Token) (block : Bool) : Read Node := do
  match fuel with
  | 0 => failure
  | fuel + 1 =>
    if (← peek) = .value then
      advance
      nodeBefore fuel ends block block
    else return empty

/-- The items between square brackets; a comma is required before all but the first. -/
def flowItems (fuel : Nat) (first : Bool) : Read (List Node) := do
  match fuel with
  | 0 => failure
  | fuel + 1 =>
    if (← peek) = .sequenceClose then
      advance
      return []
    else
      unless first do expect .comma
      match ← peek with
      | .sequenceClose =>
        advance
        return []
      | .key =>
        advance
        let field ← flowPair fuel
        return .mapping .none [field] :: (← flowItems fuel false)
      | _ =>
        let item ← node fuel false false
        return item :: (← flowItems fuel false)

/-- A field that stands alone between square brackets. Where its key is missing, the token there is
skipped. -/
def flowPair (fuel : Nat) : Read (Node × Node) := do
  match fuel with
  | 0 => failure
  | fuel + 1 =>
    let ends : List Token := [.value, .comma, .sequenceClose]
    if (← peek) ∈ ends then
      advance
      return (empty, ← fieldValue fuel [.comma, .sequenceClose] false)
    else
      let key ← node fuel false false
      return (key, ← fieldValue fuel [.comma, .sequenceClose] false)

/-- The fields between braces; a comma is required before all but the first. -/
def flowFields (fuel : Nat) (first : Bool) : Read (List (Node × Node)) := do
  match fuel with
  | 0 => failure
  | fuel + 1 =>
    if (← peek) = .mappingClose then
      advance
      return []
    else
      unless first do expect .comma
      match ← peek with
      | .mappingClose =>
        advance
        return []
      | .key =>
        advance
        let key ← nodeBefore fuel [.value, .comma, .mappingClose] false false
        let value ← fieldValue fuel [.comma, .mappingClose] false
        return (key, value) :: (← flowFields fuel false)
      | _ =>
        let key ← node fuel false false
        return (key, empty) :: (← flowFields fuel false)

end

/-! ## Documents -/

/-- The handles that need no directive. -/
def defaultHandles : List (Text × Text) :=
  [(['!'], ['!']), (['!', '!'], "tag:yaml.org,2002:".toList)]

/-- Reads the directives before a document: the version at most once, and each handle at most once. -/
def directives (fuel : Nat) (versionGiven : Bool) : Read Unit := do
  match fuel with
  | 0 => failure
  | fuel + 1 =>
    match ← peek with
    | .version major minor =>
      if versionGiven || major ≠ 1 || (minor ≠ 1 && minor ≠ 2) then failure
      advance
      directives fuel true
    | .handle name expansion =>
      let r ← get
      if (r.handles.lookup name).isSome then failure
      set { r with handles := r.handles ++ [(name, expansion)] }
      advance
      directives fuel versionGiven
    | _ => return ()

/-- Does the token stand before or behind a document? -/
def isBoundary : Token → Bool
  | .version .. | .handle .. | .documentStart | .documentEnd | .streamEnd => true
  | _ => false

/-- Does a document begin with the token, whether or not it is announced by a line of dashes? -/
def isAnnounced : Token → Bool
  | .version .. | .handle .. | .documentStart => true
  | _ => false

/-- Adds the handles that need no directive, unless a directive gave them. -/
def addDefaultHandles : Read Unit :=
  modify fun r => { r with handles := r.handles ++ defaultHandles }

/-- Skips marks for the end of a document. -/
def skipDocumentEnds : Read Unit :=
  modify fun r => { r with tokens := r.tokens.dropWhile (· = .documentEnd) }

/-- The only document of a text; a text without any is none. -/
def document (fuel : Nat) : Read (Option Node) := do
  if (← peek) = .streamEnd then return none
  else
    let announced := isAnnounced (← peek)
    if announced then
      directives fuel false
      expect .documentStart
    addDefaultHandles
    let root ←
      if announced && isBoundary (← peek) then pure empty
      else node fuel true false
    skipDocumentEnds
    expect .streamEnd
    return some root

/-- The tree of a text that holds at most one document. -/
def ofTokens? (tokens : List Token) : Option (Option Node) :=
  ((document (3 * tokens.length + 4)).run ⟨tokens, [], []⟩).map Prod.fst

/-! ## Looking around in a tree -/

mutual

/-- The number of events in which the tree is told: two for a collection and one for anything else. -/
def eventCount : Node → Nat
  | .reference _ | .scalar .. => 1
  | .sequence _ items => 2 + itemsEventCount items
  | .mapping _ fields => 2 + fieldsEventCount fields

/-- The number of events of several nodes. -/
def itemsEventCount : List Node → Nat
  | [] => 0
  | n :: rest => n.eventCount + itemsEventCount rest

/-- The number of events of several fields. -/
def fieldsEventCount : List (Node × Node) → Nat
  | [] => 0
  | (k, v) :: rest => k.eventCount + v.eventCount + fieldsEventCount rest

end

mutual

/-- The last node of the tree with the given number of an anchor. -/
def find? (target : Nat) (n : Node) : Option Node :=
  match n with
  | .reference _ => none
  | .scalar p .. => if p.anchor = some target then some n else none
  | .sequence p items =>
    (findItem? target items).or (if p.anchor = some target then some n else none)
  | .mapping p fields =>
    (findField? target fields).or (if p.anchor = some target then some n else none)

/-- The last of several nodes with the given number. -/
def findItem? (target : Nat) : List Node → Option Node
  | [] => none
  | n :: rest => (findItem? target rest).or (n.find? target)

/-- The last node among several fields with the given number. -/
def findField? (target : Nat) : List (Node × Node) → Option Node
  | [] => none
  | (k, v) :: rest =>
    ((findField? target rest).or (v.find? target)).or (k.find? target)

end

end Node

end Pagewright.Yaml
