import DocFix.Mdx.Fragments

/-!
What `fix_fragmented_blocks` does to a body, as a relation `Merged` between its input and
output lines, each annotated with the fence state on reaching it. Every line keeps its
text and its state, except at a merge: a closing fence, at most one blank line and an
orphan run outside the block become the same orphan run inside the block, closed by a bare
fence. From the relation: the lines that are neither blank nor fences are the same
sequence before and after, fence lines keep their number, and what was inside a block
stays inside one.
-/

namespace DocFix.Mdx

/-- The annotated output of the scanner against its annotated input. -/
inductive Merged : List (List Char × Bool) → List (List Char × Bool) → Prop
  | nil : Merged [] []
  | keep (p : List Char × Bool) {xs ys : List (List Char × Bool)} :
      Merged xs ys → Merged (p :: xs) (p :: ys)
  | merge (fence : List Char) (gap orphans : List (List Char))
      {xs ys : List (List Char × Bool)} :
      isFence fence = true → gap.length ≤ 1 → (∀ g ∈ gap, isBlank g = true) →
      orphans ≠ [] → (∀ o ∈ orphans, isBlank o = false ∧ isFence o = false) →
      Merged xs ys →
      Merged ((fence, true) :: (gap ++ orphans).map (·, false) ++ xs)
        (orphans.map (·, true) ++ (fenceMarker, true) :: ys)

/-- A line that is neither blank nor a fence. -/
def isContent (l : List Char) : Bool := !isBlank l && !isFence l

/-- The lines inside a block, fences left out. -/
def insideLines (xs : List (List Char × Bool)) : List (List Char) :=
  (xs.filter fun p => p.2 && !isFence p.1).map Prod.fst

/-- The lines outside every block, fences left out. -/
def outsideLines (xs : List (List Char × Bool)) : List (List Char) :=
  (xs.filter fun p => !p.2 && !isFence p.1).map Prod.fst

@[simp] theorem annotate_fst (b : Bool) (ls : List (List Char)) :
    (annotate b ls).map Prod.fst = ls := by
  induction ls generalizing b <;> simp [annotate, *]

theorem annotate_append_of_not_fence (b : Bool) {xs : List (List Char)}
    (h : ∀ l ∈ xs, isFence l = false) (ys : List (List Char)) :
    annotate b (xs ++ ys) = xs.map (·, b) ++ annotate b ys := by
  induction xs with
  | nil => rfl
  | cons x xs ih =>
      simp only [List.forall_mem_cons] at h
      simp [annotate, h.1, ih h.2]

/-! ### Consequences of the relation -/

namespace Merged

variable {xs ys : List (List Char × Bool)}

theorem content_eq (h : Merged xs ys) :
    (ys.map Prod.fst).filter isContent = (xs.map Prod.fst).filter isContent := by
  induction h with
  | nil => rfl
  | keep p _ ih => simp [List.filter_cons, ih]
  | merge fence gap orphans hf _ hgap _ hor _ ih =>
      have hg : gap.filter isContent = [] :=
        List.filter_eq_nil_iff.2 fun g hg => by simp [isContent, hgap g hg]
      have ho : orphans.filter isContent = orphans :=
        List.filter_eq_self.2 fun o ho => by simp [isContent, hor o ho]
      simp [List.filter_append, List.filter_cons, isContent, hf, hg, ho, ih, Function.comp_def]

theorem fence_count (h : Merged xs ys) :
    (ys.map Prod.fst).countP isFence = (xs.map Prod.fst).countP isFence := by
  induction h with
  | nil => rfl
  | keep p _ ih => simp [List.countP_cons, ih]
  | merge fence gap orphans hf _ hgap _ hor _ ih =>
      have hg : gap.countP isFence = 0 :=
        List.countP_eq_zero.2 fun g hg => by simp [isFence_of_isBlank (hgap g hg)]
      have ho : orphans.countP isFence = 0 :=
        List.countP_eq_zero.2 fun o ho => by simp [(hor o ho).2]
      simp [List.countP_append, List.countP_cons, hf, hg, ho, ih, Function.comp_def]

theorem inside_sublist (h : Merged xs ys) : List.Sublist (insideLines xs) (insideLines ys) := by
  induction h with
  | nil => exact .slnil
  | keep p _ ih =>
      unfold insideLines at ih ⊢
      by_cases hp : (p.2 && !isFence p.1) = true
      · simpa [List.filter_cons, hp] using ih.cons_cons p.1
      · simpa [List.filter_cons, hp] using ih
  | @merge fence gap orphans xs ys hf _ _ _ hor _ ih =>
      unfold insideLines at ih ⊢
      have hin : ((fence, true) :: (gap ++ orphans).map (·, false) ++ xs).filter
          (fun p => p.2 && !isFence p.1) = xs.filter (fun p => p.2 && !isFence p.1) := by
        simp [List.filter_append, hf, List.filter_map, Function.comp_def]
      have hout : ((orphans.map (·, true) ++ (fenceMarker, true) :: ys).filter
          (fun p => p.2 && !isFence p.1)).map Prod.fst =
            orphans ++ (ys.filter fun p => p.2 && !isFence p.1).map Prod.fst := by
        simp only [List.filter_append, List.map_append, List.filter_cons, isFence_fenceMarker,
          List.filter_map, List.map_map]
        rw [List.filter_eq_self.2 fun o ho => by simp [(hor o ho).2]]
        simp [Function.comp_def]
      rw [hin, hout]
      exact ih.trans (List.sublist_append_right _ _)

theorem outside_sublist (h : Merged xs ys) : List.Sublist (outsideLines ys) (outsideLines xs) := by
  induction h with
  | nil => exact .slnil
  | keep p _ ih =>
      unfold outsideLines at ih ⊢
      by_cases hp : (!p.2 && !isFence p.1) = true
      · simpa [List.filter_cons, hp] using ih.cons_cons p.1
      · simpa [List.filter_cons, hp] using ih
  | @merge fence gap orphans xs ys hf _ hgap _ hor _ ih =>
      unfold outsideLines at ih ⊢
      have hg : gap.filter (fun l => !isFence l) = gap :=
        List.filter_eq_self.2 fun l hl => by simp [isFence_of_isBlank (hgap l hl)]
      have ho : orphans.filter (fun l => !isFence l) = orphans :=
        List.filter_eq_self.2 fun l hl => by simp [(hor l hl).2]
      have hin : (((fence, true) :: (gap ++ orphans).map (·, false) ++ xs).filter
          (fun p => !p.2 && !isFence p.1)).map Prod.fst =
            (gap ++ orphans) ++ (xs.filter fun p => !p.2 && !isFence p.1).map Prod.fst := by
        simp [List.filter_append, List.filter_map, Function.comp_def, hg, ho]
      have hout : (orphans.map (·, true) ++ (fenceMarker, true) :: ys).filter
          (fun p => !p.2 && !isFence p.1) = ys.filter (fun p => !p.2 && !isFence p.1) := by
        simp [List.filter_append, List.filter_map, Function.comp_def]
      rw [hin, hout]
      exact ih.trans (List.sublist_append_right _ _)

end Merged

/-! ### The scanner satisfies the relation -/

theorem merged_fixLoop {fuel : Nat} {inCode : Bool} {ls : List (List Char)}
    (hf : ls.length ≤ fuel) :
    Merged (annotate inCode ls) (annotate inCode (fixLoop fuel inCode ls)) := by
  induction fuel generalizing inCode ls with
  | zero => cases ls <;> simp_all [fixLoop, annotate, Merged.nil]
  | succ fuel ih =>
      cases ls with
      | nil => exact .nil
      | cons line ls =>
          have hrest := fixStep_rest_length inCode line ls
          rw [fixLoop_cons]
          rcases fixStep_cases inCode line ls with hs | ⟨⟨hk, rfl, hne⟩, hs⟩
          · rw [hs] at hrest ⊢
            exact .keep _ (ih (by simp at hf hrest; omega))
          · rw [hs] at hrest ⊢
            obtain ⟨gap, hls, hgap, hblank⟩ := lookahead_spec hne
            have hor := fun o (ho : o ∈ (lookahead ls).1) => lookahead_orphan ho
            generalize (lookahead ls).1 = os at *
            generalize (lookahead ls).2 = rest at *
            subst hls
            have hnf : ∀ l ∈ gap ++ os, isFence l = false := by
              simp only [List.mem_append]
              rintro l (hl | hl)
              · exact isFence_of_isBlank (hblank l hl)
              · exact (hor l hl).2
            have hof : ∀ l ∈ os, isFence l = false := fun l hl => (hor l hl).2
            have hin : annotate true (line :: (gap ++ os ++ rest)) =
                (line, true) :: (gap ++ os).map (·, false) ++ annotate false rest := by
              rw [annotate, fenceStep_of_bare hk, Bool.not_true, annotate_append_of_not_fence _ hnf]
              rfl
            have hout : annotate true (os ++ [fenceMarker] ++ fixLoop fuel false rest) =
                os.map (·, true) ++ (fenceMarker, true) :: annotate false (fixLoop fuel false rest) := by
              rw [List.append_assoc, annotate_append_of_not_fence _ hof]
              simp [annotate, fenceStep_of_bare fenceKind_fenceMarker]
            rw [hin, hout]
            exact .merge line gap os (by simp [isFence, hk]) hgap hblank hne hor
              (@ih false rest (by simp at hf; omega))

/-- `fix_fragmented_blocks` loses, duplicates and reorders no line that is neither blank
nor a fence, keeps the number of fence lines, keeps every line of a block inside a block,
and moves lines into a block only as the orphan runs of its merges (`Merged`). -/
theorem fixFragmentedBlocks_preserves_content (content : List Char) :
    (lines (fixFragmentedBlocks content)).filter isContent = (lines content).filter isContent ∧
      (lines (fixFragmentedBlocks content)).countP isFence = (lines content).countP isFence ∧
      List.Sublist (insideLines (annotate false (lines content)))
        (insideLines (annotate false (lines (fixFragmentedBlocks content)))) ∧
      Merged (annotate false (lines content))
        (annotate false (lines (fixFragmentedBlocks content))) := by
  have h := @merged_fixLoop (lines content).length false (lines content) le_rfl
  rw [← lines_fixFragmentedBlocks] at h
  refine ⟨?_, ?_, h.inside_sublist, h⟩
  · simpa using h.content_eq
  · simpa using h.fence_count

/-! ### What the pass keeps of the block structure -/

theorem foldl_fenceStep_of_not_fence {xs : List (List Char)} (h : ∀ l ∈ xs, isFence l = false)
    (b : Bool) : xs.foldl fenceStep b = b := by
  induction xs with
  | nil => rfl
  | cons x xs ih =>
      simp only [List.forall_mem_cons] at h
      rw [List.foldl_cons, fenceStep_of_not_isFence h.1, ih h.2]

/-- The loop ends in the fence state its input ends in. -/
theorem foldl_fenceStep_fixLoop {fuel : Nat} {inCode : Bool} {ls : List (List Char)}
    (hf : ls.length ≤ fuel) :
    (fixLoop fuel inCode ls).foldl fenceStep inCode = ls.foldl fenceStep inCode := by
  induction fuel generalizing inCode ls with
  | zero => cases ls <;> simp_all [fixLoop]
  | succ fuel ih =>
      cases ls with
      | nil => rfl
      | cons line ls =>
          have hrest := fixStep_rest_length inCode line ls
          rw [fixLoop_cons, List.foldl_append, List.foldl_cons]
          rcases fixStep_cases inCode line ls with hs | ⟨⟨hk, rfl, hne⟩, hs⟩
          · rw [hs]
            exact @ih _ ls (by simp at hf; omega)
          · rw [hs] at hrest ⊢
            obtain ⟨gap, hls, hgap, hblank⟩ := lookahead_spec hne
            have hor := fun o (ho : o ∈ (lookahead ls).1) => (lookahead_orphan ho).2
            have hgf : ∀ l ∈ gap, isFence l = false := fun l hl => isFence_of_isBlank (hblank l hl)
            conv_rhs => rw [hls, List.foldl_append, List.foldl_append,
              fenceStep_of_bare hk, Bool.not_true, foldl_fenceStep_of_not_fence hgf,
              foldl_fenceStep_of_not_fence hor]
            rw [List.foldl_append, foldl_fenceStep_of_not_fence hor, List.foldl_cons,
              fenceStep_of_bare fenceKind_fenceMarker, List.foldl_nil, Bool.not_true]
            exact ih (by simp at hf; omega)

/-- `fix_fragmented_blocks` moves lines only into blocks: the lines outside every block in
what it writes are, in order, some of the lines outside every block in its input. And it
ends in the fence state its input ends in, so it leaves no block open that the input
closed, and closes none that the input left open. -/
theorem fixFragmentedBlocks_keeps_block_structure (content : List Char) :
    List.Sublist (outsideLines (annotate false (lines (fixFragmentedBlocks content))))
        (outsideLines (annotate false (lines content))) ∧
      (lines (fixFragmentedBlocks content)).foldl fenceStep false =
        (lines content).foldl fenceStep false := by
  rw [lines_fixFragmentedBlocks]
  exact ⟨(merged_fixLoop le_rfl).outside_sublist, foldl_fenceStep_fixLoop le_rfl⟩

end DocFix.Mdx
