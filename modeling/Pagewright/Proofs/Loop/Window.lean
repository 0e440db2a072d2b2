import Pagewright.Proofs.Binary64.Decimal
import Pagewright.Proofs.Loop.Nested
import Pagewright.Proofs.Loop.Sorting
import Pagewright.Proofs.Template.Tag
import Pagewright.Proofs.Template.WrittenTag
import Pagewright.Proofs.Text.Digits

/-!
# Pages of a loop

A loop can take a part of its items: some are passed over, and of the rest at most so many are taken. Three things live
here:

* the items at some positions of a list (`Loop.page`), which are those that a loop takes (`Loop.page_eq`);
* loops as they are written that differ in this part only (`Loop.IsPage`), in any way of writing them, and one for
  every two numbers (`Loop.exists_isPage`);
* what such a loop stands for: the rounds of the items at its positions, in their order and counted from one. So two
  pages behind each other are one page together, where the count makes no difference (`Site.expandLoops_pages`).
-/

namespace Pagewright

/-! ## Numbers in attributes -/

namespace Text

theorem natOfDigits?_eq {t : Text} (hne : t ≠ []) (h : ∀ c ∈ t, isDigit c) :
    natOfDigits? 10 t = some (Binary64.digitsValue t) := by
  refine natOfDigits?_eq_some_iff.2 ⟨hne, t.map fun c => c.toNat - 48, ?_, ?_⟩
  · rw [List.forall₂_map_right_iff, List.forall₂_same]
    intro c hc
    exact isDigitOf_of_isDigit (h c hc)
  · rw [digitsFrom, List.foldl_map]
    rfl

theorem trim_eq_self {t : Text} (h : ∀ c ∈ t, isBlank c = false) : trim t = t := by
  have hdrop : ∀ l : Text, (∀ c ∈ l, isBlank c = false) → l.dropWhile isBlank = l := by
    intro l hl
    cases l with
    | nil => rfl
    | cons c l => exact List.dropWhile_cons_of_neg (by simp [hl c List.mem_cons_self])
  rw [trim, trimStart, hdrop t h, trimEnd, hdrop t.reverse (by simpa using h), List.reverse_reverse]

/-- A number in decimal is read as itself. -/
theorem index?_trim_ofNat {n : ℕ} (h : n ≤ wordMax) : index? (trim (ofNat n)) = some n := by
  have hdigits : ∀ c ∈ ofNat n, isDigit c := fun c hc => Binary64.isDigit_of_mem_ofNat hc
  have hblank : ∀ c ∈ ofNat n, isBlank c = false := by
    intro c hc
    have hrange : 48 ≤ c.toNat ∧ c.toNat ≤ 57 := by simpa [isDigit] using hdigits c hc
    unfold isBlank
    simp
    omega
  have hread : natOfDigits? 10 (ofNat n) = some n := by
    have hne : ofNat n ≠ [] := Nat.toDigits_ne_nil
    rw [natOfDigits?_eq hne hdigits, Binary64.digitsValue_ofNat]
  have hplus : ∀ r, ofNat n ≠ '+' :: r := by
    intro r heq
    exact absurd (hdigits '+' (heq ▸ List.mem_cons_self)) (by decide)
  rw [trim_eq_self hblank, index?]
  · rw [hread]
    exact if_pos h
  · exact hplus

end Text

namespace Loop

variable {base as : Attributes} {body collection t : Text} {items sorted : List Json} {offset : ℕ} {count : Option ℕ}

/-! ## Positions -/

/-- The items at the positions from one on, at most so many. -/
def page (offset : ℕ) (count : Option ℕ) (l : List Json) : List Json :=
  (List.range' offset (min (offset + count.getD l.length) l.length - offset)).filterMap (l[·]?)

theorem filterMap_range' (l : List Json) (offset n : ℕ) :
    (List.range' offset n).filterMap (l[·]?) = (l.drop offset).take n := by
  induction n generalizing offset with
  | zero => rfl
  | succ n ih =>
    rw [List.range'_succ, List.filterMap_cons, ih]
    cases hget : l[offset]? with
    | none =>
      have hlen : l.length ≤ offset := List.getElem?_eq_none_iff.1 hget
      rw [List.drop_eq_nil_of_le hlen, List.drop_eq_nil_of_le (by omega), List.take_nil, List.take_nil]
    | some x =>
      obtain ⟨hlt, hx⟩ := List.getElem?_eq_some_iff.1 hget
      rw [List.drop_eq_getElem_cons hlt, List.take_succ_cons, hx]

theorem page_eq (offset : ℕ) (count : Option ℕ) (l : List Json) :
    page offset count l = count.elim (l.drop offset) (l.drop offset).take := by
  have hlen : (l.drop offset).length = l.length - offset := List.length_drop
  rw [page, filterMap_range']
  cases count with
  | none =>
    refine List.take_of_length_le ?_
    rw [hlen, Option.getD_none]
    omega
  | some n =>
    rw [Option.getD_some, Option.elim_some, List.take_eq_take_iff, hlen]
    omega

/-- Two pages behind each other are one page. -/
theorem page_append (offset n m : ℕ) (l : List Json) :
    page offset (some n) l ++ page (offset + n) (some m) l = page offset (some (n + m)) l := by
  rw [page_eq, page_eq, page_eq, ← List.drop_drop]
  exact (List.take_add ..).symm

theorem page_zero_none (l : List Json) : page 0 none l = l := page_eq 0 none l

theorem mem_of_mem_page {x : Json} {l : List Json} (h : x ∈ page offset count l) : x ∈ l := by
  obtain ⟨i, -, hget⟩ := List.mem_filterMap.1 h
  exact List.mem_of_getElem? hget

/-! ## Loops that differ in their pages -/

/-- The number in an attribute, if it is one. -/
def numberIn? (as : Attributes) (name : String) : Option ℕ :=
  (as.get? name.toList).bind fun t => Text.index? (Text.trim t)

/-- The attributes say the same as the given ones, but for where the page begins and how long it is. A number that is
missing or is none begins the page at the first item, and does not end it. -/
structure Picks (base as : Attributes) (offset : ℕ) (count : Option ℕ) : Prop where
  others : ∀ name, name ≠ "offset".toList → name ≠ "count".toList → as.get? name = base.get? name
  offset : (numberIn? as "offset").getD 0 = offset
  count : numberIn? as "count" = count

/-- The text is a loop with the given attributes and the given body, in any way of writing it. The closing tag is the
one that belongs to the opening tag. -/
def Writes (as : Attributes) (body t : Text) : Prop :=
  ∃ (opening : WrittenTag) (closing : WrittenEnd), opening.Proper tag ∧ closing.Proper tag ∧
    Element.closing? tag 0 (body ++ '<' :: closing.text) = some (body, '<' :: closing.text, []) ∧
    opening.read = as ∧ t = Element.written opening.opening body closing.text

/-- The text is a loop with the given body and with attributes that say the same as the given ones, but for its
page. -/
def IsPage (base : Attributes) (body : Text) (offset : ℕ) (count : Option ℕ) (t : Text) : Prop :=
  ∃ as, Picks base as offset count ∧ Writes as body t

theorem isName_tag : Element.IsName tag := by decide

/-- A loop that is written is read as one element. -/
theorem Writes.pieces_eq (h : Writes as body t) : ∃ e : Element, e.attributes = as ∧ e.body? = some body ∧
    pieces tag t = [.text [], .element e, .text []] := by
  obtain ⟨opening, closing, hopening, -, hclose, rfl, rfl⟩ := h
  have hfind := Element.find?_of_opens (opening.opens isName_tag hopening) hclose
  refine ⟨⟨'<' :: opening.opening, opening.read, some (body, '<' :: closing.text)⟩, rfl, rfl, ?_⟩
  rw [Element.written, pieces_of_find? hfind, pieces_of_find?_eq_none (Element.find?_nil tag)]

/-! ### A loop for every page -/

/-- An attribute with a number. -/
def numberAttribute (name : String) (value : Text) : WrittenAttribute := ⟨[' '], name.toList, value, .quoted [] [] '"'⟩

/-- The tag with a page behind its other attributes; where there is no count, none is read. -/
def withPage (opening : WrittenTag) (offset : ℕ) (count : Option ℕ) : WrittenTag :=
  { opening with attributes := opening.attributes ++
      [numberAttribute "offset" (Text.ofNat offset), numberAttribute "count" (count.elim [] Text.ofNat)] }

theorem notMem_ofNat {c : Char} (h : Text.isDigit c = false) (n : ℕ) : c ∉ Text.ofNat n := by
  intro hmem
  rw [Binary64.isDigit_of_mem_ofNat hmem] at h
  cases h

theorem proper_withPage {opening : WrittenTag} (h : opening.Proper tag) (offset : ℕ) (count : Option ℕ) :
    (withPage opening offset count).Proper tag := by
  obtain ⟨hname, hattributes, hgap⟩ := h
  have hnumber : ∀ (name : String) (value : Text), name.toList ≠ [] → (∀ c ∈ name.toList, OpenTag.isNameChar c) →
      '"' ∉ value → (numberAttribute name value).Proper := by
    intro name value hne hchars hvalue
    have hblank : IsGap [' '] := by decide
    have hempty : IsGap [] := by decide
    exact ⟨⟨List.cons_ne_nil _ _, hblank⟩, ⟨hne, hchars⟩, hempty, hempty, Or.inl rfl, hvalue⟩
  refine ⟨hname, fun a ha => ?_, hgap⟩
  rcases List.mem_append.1 ha with ha | ha
  · exact hattributes a ha
  · simp only [List.mem_cons, List.not_mem_nil, or_false] at ha
    rcases ha with rfl | rfl
    · exact hnumber _ _ (by decide) (by decide +kernel) (notMem_ofNat (by decide) offset)
    · refine hnumber _ _ (by decide) (by decide +kernel) ?_
      cases count with
      | none => exact List.not_mem_nil
      | some n => exact notMem_ofNat (by decide) n

theorem picks_withPage {opening : WrittenTag} (hoffset : offset ≤ Text.wordMax)
    (hcount : ∀ n ∈ count, n ≤ Text.wordMax) :
    Picks opening.read (withPage opening offset count).read offset count := by
  have hread : (withPage opening offset count).read =
      (opening.read.put "offset".toList (Text.ofNat offset)).put "count".toList (count.elim [] Text.ofNat) := by
    rw [WrittenTag.read, withPage, readAttributes, List.foldl_append]
    rfl
  rw [hread]
  refine ⟨fun name ho hc => ?_, ?_, ?_⟩
  · rw [Attributes.get?_put_of_ne (Ne.symm hc), Attributes.get?_put_of_ne (Ne.symm ho)]
  · rw [numberIn?, Attributes.get?_put_of_ne (by decide), Attributes.get?_put_self, Option.bind_some,
      Text.index?_trim_ofNat hoffset, Option.getD_some]
  · rw [numberIn?, Attributes.get?_put_self, Option.bind_some]
    cases count with
    | none => rfl
    | some n => exact Text.index?_trim_ofNat (hcount n rfl)

/-- There is a loop for every page, if the two numbers fit. -/
theorem exists_isPage (h : Writes base body t) (hoffset : offset ≤ Text.wordMax)
    (hcount : ∀ n ∈ count, n ≤ Text.wordMax) :
    ∃ t', IsPage base body offset count t' := by
  obtain ⟨opening, closing, hopening, hclosing, hclose, rfl, -⟩ := h
  exact ⟨_, _, picks_withPage hoffset hcount, withPage opening offset count, closing,
    proper_withPage hopening offset count, hclosing, hclose, rfl, rfl⟩

/-! ## The items that are taken -/

/-- The items are put in order as the attributes say: not at all, or stably by words or numbers that they all have. -/
def PutsInOrder (as : Attributes) (items sorted : List Json) : Prop :=
  match as.get? "orderBy".toList with
  | none => sorted = items
  | some written =>
    let o := Order.ofText written
    (HasWords o.field items ∧ SortsBy (directed o.descending (byWord o.field)) items sorted) ∨
      (HasNumbers o.field items ∧ SortsBy (directed o.descending (byNumber o.field)) items sorted)

/-- If the attributes name a field, it is a word in every item or a number in every item. -/
def CanBeOrdered (as : Attributes) (items : List Json) : Prop :=
  ∀ written ∈ as.get? "orderBy".toList,
    HasWords (Order.ofText written).field items ∨ HasNumbers (Order.ofText written).field items

/-- The items in the order that the attributes name. -/
def inOrder (as : Attributes) (items : List Json) : List Json :=
  match as.get? "orderBy".toList with
  | some written => sortItems (.ofText written) items
  | none => items

theorem putsInOrder_inOrder (h : CanBeOrdered as items) : PutsInOrder as items (inOrder as items) := by
  unfold PutsInOrder inOrder
  unfold CanBeOrdered at h
  cases hby : as.get? "orderBy".toList with
  | none => rfl
  | some written =>
    rw [hby] at h
    rcases h written rfl with hwords | hnumbers
    · exact Or.inl ⟨hwords, sortsBy_directed (fun a ha b hb => compareValues_of_hasWords hwords ha hb) _⟩
    · exact Or.inr ⟨hnumbers, sortsBy_directed (fun a ha b hb => compareValues_of_hasNumbers hnumbers ha hb) _⟩

theorem PutsInOrder.perm (h : PutsInOrder as items sorted) : sorted.Perm items := by
  unfold PutsInOrder at h
  split at h
  · exact .of_eq h
  · rcases h with ⟨-, hsorts⟩ | ⟨-, hsorts⟩
    · exact hsorts.perm
    · exact hsorts.perm

/-- What a loop takes of the items in order is its page. -/
theorem Picks.window_eq (h : Picks base as offset count) {e : Element} (he : e.attributes = as) (l : List Json) :
    window e l = page offset count l := by
  have hoffset : (countAttribute? e "offset").getD 0 = offset := by
    rw [countAttribute?, Element.attribute?, he]
    exact h.offset
  have hcount : countAttribute? e "count" = count := by
    rw [countAttribute?, Element.attribute?, he]
    exact h.count
  rw [window, hoffset, hcount, page_eq]
  cases count <;> rfl

end Loop

namespace Site

open Loop

variable {σ : Type} [Storage σ] {site : Site σ} {frontmatter : Option Fields} {base as : Attributes}
  {body collection t : Text} {items sorted : List Json} {offset : ℕ} {count : Option ℕ}

/-- The part of some data that a path leads to, or all of it. -/
def partAt (root : Option Text) (data : Json) : Option Json :=
  match root with
  | some root => data.navigate? root
  | none => some data

/-- The attributes name data that is a list of items. -/
structure Draws (site : Site σ) (frontmatter : Option Fields) (as : Attributes) (collection : Text)
    (items : List Json) : Prop where
  named : as.get? "collection".toList = some collection
  found : ∃ data, site.loopData? frontmatter collection = .ok (some data) ∧
    partAt (as.get? "root".toList) data = some (.array items)

/-- The name of an item in a loop with such attributes. -/
def scopeNameIn (as : Attributes) (collection : Text) : Text :=
  (as.get? "as".toList).getD (collection.map fun c => if c = '/' then '.' else c)

/-- The rounds of a loop are those of the items on its page. -/
theorem rounds?_of_picks (hdraws : Draws site frontmatter base collection items) (hpicks : Picks base as offset count)
    {e : Element} (he : e.attributes = as) (hbody : e.body? = some body) :
    site.rounds? frontmatter e =
      .ok (some (roundsOf body (page offset count (inOrder base items)) (scopeNameIn base collection))) := by
  have hattribute : ∀ name, name ≠ "offset".toList → name ≠ "count".toList → e.attribute? name = base.get? name := by
    intro name hoffset hcount
    rw [Element.attribute?, he, hpicks.others name hoffset hcount]
  obtain ⟨hnamed, data, hdata, hfound⟩ := hdraws
  have hcollection : e.attribute? "collection".toList = some collection := by
    rw [hattribute _ (by decide) (by decide), hnamed]
  have halias : aliasOf e collection = scopeNameIn base collection := by
    rw [aliasOf, scopeNameIn, hattribute _ (by decide) (by decide)]
  have hitems : site.loopItems? frontmatter e collection = .ok (some (page offset count (inOrder base items))) := by
    rw [loopItems?, hdata, hattribute _ (by decide) (by decide), hattribute _ (by decide) (by decide),
      ← hpicks.window_eq he, inOrder]
    cases hroot : base.get? "root".toList with
    | none =>
      rw [hroot] at hfound
      obtain rfl : data = .array items := Option.some.inj hfound
      rfl
    | some root =>
      rw [hroot] at hfound
      have hnavigate : data.navigate? root = some (.array items) := hfound
      simp only [bind, Except.bind, Option.bind, hnavigate]
      rfl
  simp only [rounds?, hbody, hcollection, hitems, halias, bind, Except.bind, pure, Except.pure, roundsOf]

/-- Expanding a loop is expanding the rounds of the items on its page. -/
theorem expandLoopsWithin_of_isPage (hdraws : Draws site frontmatter base collection items)
    (h : IsPage base body offset count t) (n : ℕ) :
    site.expandLoopsWithin frontmatter (n + 1) t = inSequence (site.expandLoopsWithin frontmatter n)
      (roundsOf body (page offset count (inOrder base items)) (scopeNameIn base collection)) := by
  obtain ⟨as, hpicks, hwrites⟩ := h
  obtain ⟨e, he, hbody, hpieces⟩ := hwrites.pieces_eq
  rw [expandLoopsWithin_succ, hpieces, inSequence_between,
    expandPiece_element (rounds?_of_picks hdraws hpicks he hbody)]

/-! ## Pages together -/

/-- What an item is rendered to does not depend on the number of its round. -/
def IgnoresCount (body : Text) (items : List Json) (scopeName : Text) : Prop :=
  ∀ item ∈ items, ∀ i j, renderItem body item i scopeName = renderItem body item j scopeName

theorem roundsOf_append {l l' : List Json} {scopeName : Text} (h : IgnoresCount body l' scopeName) :
    roundsOf body (l ++ l') scopeName = roundsOf body l scopeName ++ roundsOf body l' scopeName := by
  have hshift : l'.mapIdx (fun i item => renderItem body item (i + l.length) scopeName) =
      l'.mapIdx fun i item => renderItem body item i scopeName := by
    refine List.ext_getElem (by simp) fun i hi _ => ?_
    rw [List.getElem_mapIdx, List.getElem_mapIdx]
    exact h _ (List.getElem_mem _) _ _
  rw [roundsOf, List.mapIdx_append, hshift]
  rfl

/-- The fields of an object are shown alike in every round. -/
theorem ignoresCount_hole {scopeName field post : Text} (hname : Template.IsName scopeName)
    (hfield : Template.IsName field) (hloop : field ≠ "loop".toList) (hbrace : '\x7b' ∉ post) (hlt : '<' ∉ post)
    (hitems : ∀ item ∈ items, isObject item) :
    IgnoresCount (Condition.hole scopeName field ++ post) items scopeName := by
  intro item hitem
  have hplain : '<' ∉ Condition.hole scopeName field ++ post := by
    simp [Condition.hole, Placeholder.scopeOpening, hname.notMem (c := '<') (by decide),
      hfield.notMem (c := '<') (by decide), hlt]
  -- scopes of different rounds differ in the number of the round only, which is not what is shown
  have hlookup : ∀ i, (scopeOf item i).lookup? field = (scopeOf item 0).lookup? field := by
    intro i
    have hpoint : Text.splitOnce? '.' field = none := Text.splitOnce?_of_notMem (hfield.notMem (by decide))
    simp only [Fields.lookup?, hpoint, scopeOf, Fields.get?_insert, if_neg (Ne.symm hloop)]
  have hrender : ∀ i, renderItem (Condition.hole scopeName field ++ post) item i scopeName =
      Template.Env.shows [(scopeName, scopeOf item 0)] scopeName field ++ post := by
    intro i
    rw [renderItem_of_skips (Element.skips_of_notMem hplain) (Element.skips_of_notMem hplain), fillItem, nameItem,
      if_pos (hitems item hitem), Template.replaceScoped_hole _ hfield, replaceScoped_of_notMem hbrace]
    simp only [Template.Env.shows, Template.Env.scope?, if_pos, Option.bind_some, hlookup i]
  intro i j
  rw [hrender, hrender]

/-- Loops that take a part of their items. There is one way to put the items in order, by which all these loops stand
for the rounds of the items at their positions, in this order and counted from the first of them. Two pages behind each
other are one page, where the count makes no difference; a loop without a page has the rounds of all items; and there
is a loop for every page whose numbers fit. -/
theorem expandLoops_pages (hdraws : Draws site frontmatter base collection items) (horder : CanBeOrdered base items) :
    ∃ sorted, PutsInOrder base items sorted ∧
      (∀ offset count t, IsPage base body offset count t →
        site.expandLoops frontmatter t = inSequence (site.expandLoopsWithin frontmatter site.stack)
            (roundsOf body (page offset count sorted) (scopeNameIn base collection)) ∧
          ∀ r, site.expandLoops frontmatter t = some r → inSequence (site.expandLoops frontmatter)
            (roundsOf body (page offset count sorted) (scopeNameIn base collection)) = some r) ∧
      (IgnoresCount body items (scopeNameIn base collection) →
        ∀ o c d t t' t'' x y, IsPage base body o (some c) t → IsPage base body (o + c) (some d) t' →
          IsPage base body o (some (c + d)) t'' → site.expandLoops frontmatter t = some (.ok x) →
          site.expandLoops frontmatter t' = some (.ok y) → site.expandLoops frontmatter t'' = some (.ok (x ++ y))) ∧
      page 0 none sorted = sorted ∧
      ∀ t, Writes base body t → ∀ offset ≤ Text.wordMax, ∀ count : Option ℕ, (∀ n ∈ count, n ≤ Text.wordMax) →
        ∃ t', IsPage base body offset count t' := by
  have hsorted := putsInOrder_inOrder horder
  have hexpand : ∀ offset count t, IsPage base body offset count t →
      site.expandLoops frontmatter t = inSequence (site.expandLoopsWithin frontmatter site.stack)
        (roundsOf body (page offset count (inOrder base items)) (scopeNameIn base collection)) :=
    fun offset count t h => expandLoopsWithin_of_isPage hdraws h site.stack
  refine ⟨inOrder base items, hsorted, fun offset count t h => ⟨hexpand offset count t h, fun r hr => ?_⟩,
    fun hignores o c d t t' t'' x y ht ht' ht'' hx hy => ?_, page_zero_none _,
    fun t ht offset hoffset count hcount => exists_isPage ht hoffset hcount⟩
  · -- what is answered with less room on the stack is answered with more
    rw [hexpand offset count t h] at hr
    exact inSequence_eq_some_of_le (fun u r => expandLoopsWithin_of_le (Nat.le_succ site.stack)) hr
  · have hpage : IgnoresCount body (page (o + c) (some d) (inOrder base items)) (scopeNameIn base collection) :=
      fun item hitem => hignores item (hsorted.perm.mem_iff.1 (mem_of_mem_page hitem))
    rw [hexpand _ _ _ ht] at hx
    rw [hexpand _ _ _ ht'] at hy
    rw [hexpand _ _ _ ht'', ← page_append, roundsOf_append hpage]
    exact inSequence_append_of_ok hx hy

/-! ## Pages of three numbers -/

/-- Three numbers that are not in order. -/
def threeNumbers : List Json := [numberItem 3, numberItem 1, numberItem 2]

/-- A loop over numbers in their order. -/
def numbersTag : WrittenTag where
  name := "foreach".toList
  attributes := [⟨[' '], "collection".toList, ['c'], .unquoted [] []⟩, ⟨[' '], "as".toList, ['a'], .unquoted [] []⟩,
    ⟨[' '], "orderBy".toList, ['n'], .quoted [] [' '] '\''⟩]
  gap := ['\n']

/-- A page of the loop, with the numbers one after the other. -/
def numbersPage (offset count : ℕ) : Text :=
  Element.written (withPage numbersTag offset (some count)).opening (Condition.hole ['a'] ['n'] ++ [' '])
    (WrittenEnd.text ⟨tag, []⟩)

theorem writes_numbersPage {offset count : ℕ} :
    Writes (withPage numbersTag offset (some count)).read (Condition.hole ['a'] ['n'] ++ [' '])
      (numbersPage offset count) :=
  ⟨withPage numbersTag offset (some count), ⟨tag, []⟩, proper_withPage (by decide +kernel) offset (some count),
    by decide +kernel, by decide +kernel, rfl, rfl⟩

theorem expandLoops_pages_threeNumbers :
    Draws (collectionSite ['c'] threeNumbers) none numbersTag.read ['c'] threeNumbers ∧
      CanBeOrdered numbersTag.read threeNumbers ∧
      IgnoresCount (Condition.hole ['a'] ['n'] ++ [' ']) threeNumbers ['a'] ∧
      (collectionSite ['c'] threeNumbers).expandLoops none (numbersPage 0 1) = some (.ok "1 ".toList) ∧
      (collectionSite ['c'] threeNumbers).expandLoops none (numbersPage 1 7) = some (.ok "2 3 ".toList) ∧
      (collectionSite ['c'] threeNumbers).expandLoops none (numbersPage 0 8) = some (.ok "1 2 3 ".toList) := by
  have hdraws : Draws (collectionSite ['c'] threeNumbers) none numbersTag.read ['c'] threeNumbers :=
    ⟨rfl, _, loopData?_collectionSite ['c'] threeNumbers (by decide), rfl⟩
  have horder : CanBeOrdered numbersTag.read threeNumbers := by
    intro written hwritten
    obtain rfl : ['n'] = written := Option.some.inj hwritten
    refine Or.inr ?_
    simp only [HasNumbers, threeNumbers, List.forall_mem_cons, List.not_mem_nil, IsEmpty.forall_iff, implies_true,
      and_true]
    exact ⟨⟨_, rfl, trivial⟩, ⟨_, rfl, trivial⟩, ⟨_, rfl, trivial⟩⟩
  have hignores : IgnoresCount (Condition.hole ['a'] ['n'] ++ [' ']) threeNumbers ['a'] :=
    ignoresCount_hole (by decide) (by decide) (by decide) (by decide) (by decide) (by decide)
  have hpage : ∀ offset ≤ 8, ∀ count ≤ 8, IsPage numbersTag.read (Condition.hole ['a'] ['n'] ++ [' ']) offset
      (some count) (numbersPage offset count) := by
    intro offset hoffset count hcount
    have hword : 8 ≤ Text.wordMax := by decide
    exact ⟨_, picks_withPage (hoffset.trans hword) fun n hn => Option.some.inj hn ▸ hcount.trans hword,
      writes_numbersPage⟩
  have hfirst : (collectionSite ['c'] threeNumbers).expandLoops none (numbersPage 0 1) = some (.ok "1 ".toList) := by
    decide +kernel
  have hrest : (collectionSite ['c'] threeNumbers).expandLoops none (numbersPage 1 7) = some (.ok "2 3 ".toList) := by
    decide +kernel
  obtain ⟨-, -, -, happend, -⟩ := expandLoops_pages hdraws horder
  exact ⟨hdraws, horder, hignores, hfirst, hrest, happend hignores 0 1 7 _ _ _ _ _ (hpage 0 (by decide) 1 (by decide))
    (hpage 1 (by decide) 7 (by decide)) (hpage 0 (by decide) 8 (by decide)) hfirst hrest⟩

end Site

end Pagewright
