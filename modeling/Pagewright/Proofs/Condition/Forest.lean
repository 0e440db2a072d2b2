import Pagewright.Proofs.Loop.Round

/-!
# Blocks inside of blocks

`Condition.resolveBlocks` cuts a document at its blocks and goes on in their bodies. Three things live here:

* the forest of the blocks of a document, with its text and what it means;
* the search for the end of a block, which passes over the blocks inside of it;
* the meaning of a document, which is the meaning of its forest (`Forest.resolveBlocks_write`).
-/

namespace Pagewright.Condition

open Template (blockOpening blockClosing)

/-- The blocks of a document and the texts around them: a text, or a text, a block with its children, and the
rest. Between two blocks there is one text, which may be empty. -/
inductive Forest
  | text (t : Text)
  | block (t condition : Text) (children rest : Forest)

namespace Forest

variable {f : Forest} {scope : Fields} {scopeName r : Text}

/-- A forest as it is written. -/
def write : Forest → Text
  | text t => t
  | block t condition children rest =>
    t ++ (Element.written (blockOpening condition) children.write blockClosing ++ rest.write)

/-- What a forest means: a block is its children when its condition is true, and nothing when the condition is
false or has no value. -/
def meaning (scope : Fields) (scopeName : Text) : Forest → Text
  | text t => t
  | block t condition children rest =>
    t ++ ((match evaluate (inlinePlaceholders scopeName scope condition) scope scopeName with
      | .ok true => children.meaning scope scopeName
      | .ok false => []
      | .error _ => []) ++ rest.meaning scope scopeName)

/-- The texts are chunks, so all tags are those of the blocks, and the conditions can stand in quotes. -/
def Proper : Forest → Prop
  | text t => Element.IsChunk "If".toList t
  | block t condition children rest =>
    Element.IsChunk "If".toList t ∧ '"' ∉ condition ∧ children.Proper ∧ rest.Proper

instance decidableProper : (f : Forest) → Decidable f.Proper
  | text _ => inferInstanceAs (Decidable (Element.IsChunk _ _))
  | block _ _ children rest =>
    have := decidableProper children
    have := decidableProper rest
    inferInstanceAs (Decidable (_ ∧ _ ∧ _ ∧ _))

/-! ## The ends of blocks -/

/-- No tag of a block begins in a chunk, when a tag or the end of the document is behind it. -/
theorem skipsBefore {t : Text} (h : Element.IsChunk "If".toList t) (hr : Element.AtTag r) :
    Element.SkipsBefore "If".toList t r :=
  h.skipsBefore (by decide) hr

/-- The tags of a block, with what is behind each of them. -/
theorem write_block_append (t condition : Text) (children rest : Forest) (r : Text) :
    (block t condition children rest).write ++ r =
      t ++ ('<' :: blockOpening condition ++ (children.write ++ ('<' :: blockClosing ++ (rest.write ++ r)))) := by
  simp [write, Element.written]

/-- The search for the end of a block passes over a forest, at any depth. -/
theorem closing?_write_append (h : f.Proper) (hr : Element.AtTag r) (depth : Nat) :
    Element.closing? "If".toList depth (f.write ++ r) =
      (Element.closing? "If".toList depth r).map (Element.prepend f.write) := by
  induction f generalizing depth r with
  | text t => exact (skipsBefore h hr).closing?_append depth
  | block t condition children rest ihc ihr =>
    obtain ⟨ht, hcondition, hchildren, hrest⟩ := h
    -- the depth goes up with the opening tag and comes back with the closing one
    rw [write_block_append, (skipsBefore ht (Element.atTag_append _ _)).closing?_append,
      (Template.opens_block hcondition).closing?, ihc hchildren (Element.atTag_append _ _),
      Template.closes_block.closing?_succ, ihr hrest hr]
    simp only [Option.map_map, Element.prepend_comp]
    simp [write, Element.written]

/-! ## Meaning -/

/-- A document means what the forest of its blocks means. -/
theorem resolveBlocks_write (h : f.Proper) (scope : Fields) (scopeName : Text) :
    resolveBlocks scope scopeName f.write = f.meaning scope scopeName := by
  induction f with
  | text t =>
    have hend := Template.resolveBlocks_of_skipsBefore (skipsBefore h Element.atTag_nil) scope scopeName
    rwa [List.append_nil, Template.resolveBlocks_nil, List.append_nil] at hend
  | block t condition children rest ihc ihr =>
    obtain ⟨ht, hcondition, hchildren, hrest⟩ := h
    have htext := write_block_append t condition children rest []
    have hclosing : Element.closing? "If".toList 0 (children.write ++ ('<' :: blockClosing ++ rest.write)) =
        some (children.write, '<' :: blockClosing, rest.write) := by
      rw [closing?_write_append hchildren (Element.atTag_append _ _), Template.closes_block.closing?_zero]
      simp [Element.prepend]
    rw [List.append_nil, List.append_nil] at htext
    rw [htext, Template.resolveBlocks_of_skipsBefore (skipsBefore ht (Element.atTag_append _ _)),
      Template.resolveBlocks_of_closing? hcondition hclosing, ihc hchildren, ihr hrest, meaning, holds]
    -- an error counts as false
    cases evaluate (inlinePlaceholders scopeName scope condition) scope scopeName with
    | ok b => cases b <;> rfl
    | error err => rfl

/-- Tags in a condition, a condition that cannot be read, and a true block inside of a false one. -/
theorem resolveBlocks_tagsInConditions :
    let shown : Forest :=
      .block "y<".toList "'</If>' === '<If condition=1>'".toList (.text "no".toList)
        (.block [] "(".toList (.text "unread".toList) (.text "z".toList))
    let hidden : Forest := .block [] "true".toList (.text "hidden".toList) (.text [])
    let f : Forest :=
      .block "x".toList "\x7ba.n\x7d < 2".toList shown (.block "-".toList "false".toList hidden (.text "end".toList))
    f.Proper ∧ resolveBlocks [("n".toList, .number (.int 1))] "a".toList f.write = "xy<z-end".toList := by
  refine ⟨by decide, (resolveBlocks_write (by decide) _ _).trans ?_⟩
  decide +kernel

end Forest

end Pagewright.Condition
