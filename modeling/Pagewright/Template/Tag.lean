import Pagewright.Text.Alphanumeric
import Pagewright.Text.Basic

/-! # `Template.Tag`: the attributes of an opening tag

`OpenTag.parse?` reads what follows the name of a tag, up to the `>` that ends it. Attributes are
written `name="value"`, `name='value'`, `name=value` or just `name`; characters that belong to none
of these are passed over. A tag that never ends is no tag.
-/

namespace Pagewright

/-- The attributes of a tag in the order in which they are first written. -/
abbrev Attributes := List (Text × Text)

namespace Attributes

/-- The value of the attribute with a name. -/
def get? (name : Text) : Attributes → Option Text
  | [] => none
  | (k, v) :: rest => if k = name then some v else get? name rest

/-- Sets an attribute: a new one comes last, one that is there already keeps its place. -/
def put (name value : Text) : Attributes → Attributes
  | [] => [(name, value)]
  | (k, v) :: rest => if k = name then (k, value) :: rest else (k, v) :: put name value rest

end Attributes

/-- An opening tag without its name. -/
structure OpenTag where
  attributes : Attributes
  selfClosing : Bool
deriving DecidableEq, Inhabited

namespace OpenTag

/-- Can the character stand in the name of an attribute? -/
def isNameChar (c : Char) : Bool := Text.isAlphanumeric c || c = '_' || c = '-' || c = ':'

/-- Does an unquoted value go on with this character? -/
def isBareChar (c : Char) : Bool := !Text.isBlank c && c != '>'

/-- An unquoted value and the rest. A slash right before the end of the tag is not part of it. -/
def bareValue (t : Text) : Text × Text :=
  let value := t.takeWhile isBareChar
  let rest := t.dropWhile isBareChar
  match value.getLast?, rest with
  | some '/', '>' :: _ => (value.dropLast, '/' :: rest)
  | _, _ => (value, rest)

/-- The value of an attribute and the rest; a quoted value ends at the next quote of its kind. -/
def attributeValue? : Text → Option (Text × Text)
  | [] => some ([], [])
  | c :: r => if c = '"' || c = '\'' then Text.splitOnce? c r else some (bareValue (c :: r))

/-! ## What is left is a part of what was given -/

theorem splitOnce?_eq_append {sep : Char} {t before rest : Text}
    (h : Text.splitOnce? sep t = some (before, rest)) : t = before ++ sep :: rest := by
  induction t generalizing before with
  | nil => simp [Text.splitOnce?] at h
  | cons c r ih =>
    simp only [Text.splitOnce?] at h
    split at h
    · next hc => simp at h; obtain ⟨rfl, rfl⟩ := h; simp [hc]
    · next hc =>
      obtain ⟨⟨b, s⟩, hb, hs⟩ := Option.map_eq_some_iff.1 h
      simp at hs
      obtain ⟨rfl, rfl⟩ := hs
      simp [ih hb]

theorem bareValue_append (t : Text) : (bareValue t).1 ++ (bareValue t).2 = t := by
  simp only [bareValue]
  split
  · next r hl hr =>
    obtain ⟨value, hv⟩ := List.getLast?_eq_some_iff.1 hl
    calc (t.takeWhile isBareChar).dropLast ++ '/' :: t.dropWhile isBareChar
        = t.takeWhile isBareChar ++ t.dropWhile isBareChar := by simp [hv]
      _ = t := List.takeWhile_append_dropWhile
  · simp

theorem suffix_of_attributeValue? {t value rest : Text}
    (h : attributeValue? t = some (value, rest)) : rest <:+ t := by
  cases t with
  | nil => simp [attributeValue?] at h; simp [h]
  | cons c r =>
    simp only [attributeValue?] at h
    split at h
    · have := splitOnce?_eq_append h
      exact ⟨c :: value ++ [c], by simp [this]⟩
    · simp at h
      exact ⟨value, by simpa [h] using bareValue_append (c :: r)⟩

/-! ## Reading -/

/-- Reads attributes up to the end of the tag, where some have been read already. -/
def parseFrom (read : Attributes) : Text → Option (OpenTag × Text)
  | [] => none
  | c :: r =>
    if Text.isBlank c then parseFrom read r
    else if c = '>' then some (⟨read, false⟩, r)
    else if c = '/' && r.head? = some '>' then some (⟨read, true⟩, r.tail)
    else if isNameChar c then
      let name := c :: r.takeWhile isNameChar
      match _hr : Text.trimStart (r.dropWhile isNameChar) with
      | [] => none
      | d :: r' =>
        if d = '=' then
          match _hv : attributeValue? (Text.trimStart r') with
          | none => none
          | some (value, rest) => parseFrom (read.put name value) rest
        else parseFrom (read.put name []) (d :: r')
    else parseFrom read r
termination_by t => t.length
decreasing_by
  all_goals simp_wf
  · have h1 := (suffix_of_attributeValue? _hv).length_le
    have h2 := Text.length_trimStart_le r'
    have h3 := Text.length_trimStart_le (r.dropWhile isNameChar)
    have h4 := Text.length_dropWhile_le isNameChar r
    rw [_hr] at h3
    simp at h3
    omega
  · have h3 := Text.length_trimStart_le (r.dropWhile isNameChar)
    have h4 := Text.length_dropWhile_le isNameChar r
    rw [_hr] at h3
    simp at h3
    omega

/-- The opening tag whose name has just been read, and what follows the tag. -/
def parse? (t : Text) : Option (OpenTag × Text) := parseFrom [] t

theorem suffix_of_parseFrom {read : Attributes} {t rest : Text} {tag : OpenTag}
    (h : parseFrom read t = some (tag, rest)) : rest <:+ t := by
  fun_induction parseFrom read t with
  | case1 => simp at h
  | case2 _ c r _ ih => exact (ih h).trans (List.suffix_cons c r)
  | case3 => simp at h; simp [← h.2]
  | case4 _ c r =>
    simp at h
    exact h.2 ▸ (List.tail_suffix r).trans (List.suffix_cons c r)
  | case5 => simp at h
  | case6 => simp at h
  | case7 _ c r _ _ _ _ _ r' value rest' hv hr ih =>
    have h1 : r' <:+ Text.trimStart (r.dropWhile isNameChar) := hr ▸ List.suffix_cons _ r'
    exact (ih h).trans ((suffix_of_attributeValue? hv).trans ((List.dropWhile_suffix _).trans
      (h1.trans ((List.dropWhile_suffix _).trans ((List.dropWhile_suffix _).trans
        (List.suffix_cons c r))))))
  | case8 _ c r _ _ _ _ _ _ _ hr _ ih =>
    exact (ih h).trans (hr ▸ (List.dropWhile_suffix _).trans ((List.dropWhile_suffix _).trans
      (List.suffix_cons c r)))
  | case9 _ c r _ _ _ _ ih => exact (ih h).trans (List.suffix_cons c r)

theorem suffix_of_parse? {t rest : Text} {tag : OpenTag} (h : parse? t = some (tag, rest)) :
    rest <:+ t := suffix_of_parseFrom h

end OpenTag

end Pagewright
