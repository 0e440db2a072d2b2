import Pagewright.Proofs.Template.Element

/-!
# Elements, replaced one after the other

Finding a replacement is work of any kind, which may fail or change what later work sees. Replacing the elements of a
document does this work for the first element, and then for those behind it (`replaceElementsM_of_find?`). Where it is
no work at all, the document is what its elements are replaced by (`replaceElementsM_eq_pure`).
-/

namespace Pagewright

variable {m : Type → Type} [Monad m] [LawfulMonad m] {name t before rest : Text} {e : Element}
  {f : Element → m (Option Text)} {g : Element → Option Text}

theorem mapM_eq_pure {α β : Type} {f : α → m β} {g : α → β} {l : List α} (h : ∀ a ∈ l, f a = pure (g a)) :
    l.mapM f = pure (l.map g) := by
  induction l with
  | nil => exact List.mapM_nil
  | cons a l ih =>
    obtain ⟨ha, hl⟩ := List.forall_mem_cons.1 h
    rw [List.mapM_cons, ha, ih hl, pure_bind, pure_bind, List.map_cons]

theorem replaceElementsM_of_find?_eq_none (h : Element.find? name t = none) : replaceElementsM name f t = pure t := by
  rw [replaceElementsM, pieces_of_find?_eq_none h, List.mapM_cons, List.mapM_nil]
  simp

/-- The first element is replaced, and then those behind it. -/
theorem replaceElementsM_of_find? (h : Element.find? name t = some (before, e, rest)) :
    replaceElementsM name f t = do
      let replacement ← f e
      let tail ← replaceElementsM name f rest
      return before ++ (replacement.getD e.text ++ tail) := by
  unfold replaceElementsM
  rw [pieces_of_find? h, List.mapM_cons, List.mapM_cons]
  simp

theorem replaceElements_of_find?_eq_none (h : Element.find? name t = none) : replaceElements name g t = t := by
  unfold replaceElements
  rw [pieces_of_find?_eq_none h]
  simp

theorem replaceElements_of_find? (h : Element.find? name t = some (before, e, rest)) :
    replaceElements name g t = before ++ ((g e).getD e.text ++ replaceElements name g rest) := by
  unfold replaceElements
  rw [pieces_of_find? h, List.flatMap_cons, List.flatMap_cons]

/-- Where finding replacements is no work, replacing is none. -/
theorem replaceElementsM_eq_pure (h : ∀ e, .element e ∈ pieces name t → f e = pure (g e)) :
    replaceElementsM name f t = pure (replaceElements name g t) := by
  fun_induction pieces name t with
  | case1 t hnone => rw [replaceElementsM_of_find?_eq_none hnone, replaceElements_of_find?_eq_none hnone]
  | case2 t before e rest hfind ih =>
    have hrest := ih fun e' he' => h e' (List.mem_cons_of_mem _ (List.mem_cons_of_mem _ he'))
    have he := h e (List.mem_cons_of_mem _ List.mem_cons_self)
    rw [replaceElementsM_of_find? hfind, replaceElements_of_find? hfind, he, hrest, pure_bind, pure_bind]

/-- Elements that are replaced by themselves, or not at all, leave the document as it is. -/
theorem replaceElements_eq_self (h : ∀ e, .element e ∈ pieces name t → (g e).getD e.text = e.text) :
    replaceElements name g t = t := by
  conv_rhs => rw [← flatMap_source_pieces name t]
  rw [replaceElements, List.flatMap_def, List.flatMap_def]
  congr 1
  refine List.map_congr_left fun p hp => ?_
  cases p with
  | text t => rfl
  | element e => exact h e hp

end Pagewright
