import Pagewright.Proofs.Site.Pointing
import Pagewright.Proofs.Template.Replacement
import Pagewright.Proofs.Template.TagScan

/-!
# Documents without loops over contents

Every loop with a body is put together again when the collections of a document are made, also one that is over no
contents. Two things live here:

* a loop over contents, at any depth, has its tag among the opening tags of the document
  (`Site.ContentLoop.exists_mem_openTags`);
* a document without such loops stays as it is, and so does the site (`Site.materializeLoops_eq_pure`).
-/

namespace Pagewright.Site

variable {σ : Type} [Storage σ] {t name : Text} {e : Element}

/-- An element of a document has its tag and those of its body among the tags of the document. -/
theorem subset_openTags_of_mem_pieces (h : .element e ∈ pieces Loop.tag t) :
    e.openTag :: openTags Loop.tag e.body ⊆ openTags Loop.tag t := by
  rw [openTags_eq_flatMap_pieces isName_tag t]
  exact fun tag htag => List.mem_flatMap.2 ⟨.element e, h, htag⟩

theorem ContentLoop.exists_mem_openTags (h : ContentLoop t e name) :
    ∃ tag ∈ openTags Loop.tag t, tag.attributes.get? "content".toList = some name := by
  induction h with
  | outermost hmem _ hname => exact ⟨_, subset_openTags_of_mem_pieces hmem List.mem_cons_self, hname⟩
  | inside hmem _ ih =>
    obtain ⟨tag, htag, hname⟩ := ih
    exact ⟨tag, subset_openTags_of_mem_pieces hmem (List.mem_cons_of_mem _ htag), hname⟩

/-- Without loops over contents nothing is made, and each loop is put together as it was. -/
theorem materializeLoops_eq_pure (t : Text) (h : ∀ e name, ¬ ContentLoop t e name) :
    materializeLoops (σ := σ) t = pure t := by
  have hsource : (pieces Loop.tag t).attach.map (fun p => p.1.source) = (pieces Loop.tag t).map Piece.source :=
    List.attach_map_val
  conv_rhs => rw [← flatMap_source_pieces Loop.tag t, List.flatMap_def, ← hsource]
  rw [materializeLoops, mapM_eq_pure, pure_bind]
  rintro ⟨p, hp⟩ -
  cases p with
  | text t => rfl
  | element e =>
    have hbody := materializeLoops_eq_pure e.body fun d name hd => h d name (.inside hp hd)
    have hname : ∀ name, e.content ≠ none → e.attribute? "content".toList ≠ some name := fun name hcontent hname =>
      h e name (.outermost hp hcontent hname)
    obtain ⟨opening, attributes, content⟩ := e
    cases content with
    | none => rfl
    | some c =>
      have hnone := Option.eq_none_iff_forall_ne_some.2 fun name => hname name (by simp)
      dsimp only
      rw [hbody, pure_bind, hnone]
      rfl
termination_by t.length
decreasing_by exact length_body_lt_of_mem_pieces hp

/-- A document in which no opening tag of a loop names contents stays as it is, whether the loops are closed or not, and
the site and its storage are left as they were. -/
theorem materializeLoops_of_contentless
    (h : ∀ tag ∈ openTags Loop.tag t, tag.attributes.get? "content".toList = none) (site : Site σ) :
    materializeLoops t site = some (.ok t, site) := by
  have hpure : materializeLoops (σ := σ) t = pure t := by
    refine materializeLoops_eq_pure t fun e name hloop => ?_
    obtain ⟨tag, htag, hname⟩ := hloop.exists_mem_openTags
    rw [h tag htag] at hname
    cases hname
  rw [hpure]
  rfl

/-- Loops inside of each other, one that closes itself, and one that is never closed, with white space of all kinds; the
value of an attribute looks like a loop over contents, but it is no tag. -/
theorem materializeLoops_oddTags :
    let t := "<ForEach\n as = x ><foreach/>é<FOREACH as='<ForEach content=a>'\t>y</ForEach ></foreach\n><ForEach >".toList
    (openTags Loop.tag t).map OpenTag.attributes =
        [[("as".toList, "x".toList)], [], [("as".toList, "<ForEach content=a>".toList)], []] ∧
      (∀ tag ∈ openTags Loop.tag t, tag.attributes.get? "content".toList = none) ∧
      materializeLoops t noteSite = some (.ok t, noteSite) := by
  intro t
  have hattributes : (openTags Loop.tag t).map OpenTag.attributes =
      [[("as".toList, "x".toList)], [], [("as".toList, "<ForEach content=a>".toList)], []] := by
    decide +kernel
  have hcontentless : ∀ tag ∈ openTags Loop.tag t, tag.attributes.get? "content".toList = none := by
    intro tag htag
    have hmem : tag.attributes ∈ (openTags Loop.tag t).map OpenTag.attributes := List.mem_map_of_mem htag
    rw [hattributes] at hmem
    generalize tag.attributes = attributes at hmem
    revert attributes
    decide
  exact ⟨hattributes, hcontentless, materializeLoops_of_contentless hcontentless noteSite⟩

end Pagewright.Site
