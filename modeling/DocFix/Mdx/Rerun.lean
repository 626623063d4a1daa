import Mathlib.Data.List.Forall2
import DocFix.Mdx.Fragments

/-!
Running `fix_fragmented_blocks` a second time. After a merge the pass resumes after the
orphan run, so the fence it re-emits is never looked ahead from; on a second run it is,
and the lookahead can find another orphan run behind one blank line. That is the only way
the second run differs from the first: the pass is idempotent on a body exactly when no
merge of its first run leaves such a run behind (`MergesSettled`).
-/

namespace DocFix.Mdx

/-- The orphan scan takes `l` as the first line of a run. -/
def takesOrphan (l : List Char) : Bool := !stopsScan l && isCodeContinuation l

/-- The lookahead finds an orphan run: at most one blank line, then a line the scan takes. -/
def startsOrphanRun : List (List Char) → Bool
  | [] => false
  | l :: ls =>
      if isBlank l then
        match ls with
        | r :: _ => takesOrphan r
        | [] => false
      else takesOrphan l

/-- At every merge of the run, the lookahead from the re-emitted fence finds nothing. -/
def MergesSettled : Nat → Bool → List (List Char) → Prop
  | _, _, [] => True
  | 0, _, _ :: _ => True
  | fuel + 1, inCode, line :: ls =>
      (IsMerge inCode line ls → (lookahead (lookahead ls).2).1 = []) ∧
        MergesSettled fuel (fixStep inCode line ls).2.1 (fixStep inCode line ls).2.2

theorem takesOrphan_of_isBlank {l : List Char} (h : isBlank l = true) : takesOrphan l = false := by
  simp [takesOrphan, stopsScan, isMarkdownText_of_isBlank h]

theorem orphanScan_false_eq_nil_iff (l : List Char) (ls : List (List Char)) :
    (orphanScan false (l :: ls)).1 = [] ↔ takesOrphan l = false := by
  cases hs : stopsScan l <;> cases hc : isCodeContinuation l <;>
    simp [orphanScan, takesOrphan, hs, hc]

theorem lookahead_eq_nil_iff (ls : List (List Char)) :
    (lookahead ls).1 = [] ↔ startsOrphanRun ls = false := by
  match ls with
  | [] => simp [lookahead, startsOrphanRun]
  | [l] => by_cases hl : isBlank l <;> simp [lookahead, startsOrphanRun, hl,
      orphanScan_false_eq_nil_iff]
  | l :: r :: ls =>
      by_cases hl : isBlank l
      · by_cases hr : isBlank r
        · simp [lookahead, startsOrphanRun, hl, hr, takesOrphan_of_isBlank hr]
        · simp [lookahead, startsOrphanRun, hl, hr, orphanScan_false_eq_nil_iff]
      · simp [lookahead, startsOrphanRun, hl, orphanScan_false_eq_nil_iff]

/-- Outside a block the loop passes its first line through. -/
theorem fixLoop_false_cons (fuel : Nat) (l : List Char) (ls : List (List Char)) :
    fixLoop (fuel + 1) false (l :: ls) = l :: fixLoop fuel (fenceStep false l) ls := by
  rw [fixLoop_cons, fixStep_of_not_merge (by simp [IsMerge])]
  rfl

/-- Outside a block the loop keeps the lines the lookahead reads. -/
theorem startsOrphanRun_fixLoop {fuel : Nat} {ls : List (List Char)} (hf : ls.length ≤ fuel) :
    startsOrphanRun (fixLoop fuel false ls) = startsOrphanRun ls := by
  match fuel, ls with
  | _, [] => simp [fixLoop]
  | 0, _ :: _ => simp at hf
  | fuel + 1, l :: ls =>
      rw [fixLoop_false_cons]
      by_cases hl : isBlank l
      · rw [fenceStep_of_not_isFence (isFence_of_isBlank hl)]
        match fuel, ls with
        | _, [] => simp [fixLoop, startsOrphanRun, hl]
        | 0, _ :: _ => simp at hf
        | fuel + 1, r :: ls => simp [fixLoop_false_cons, startsOrphanRun, hl]
      · simp [startsOrphanRun, hl]

theorem fixLoop_append_of_not_fence {xs : List (List Char)} (h : ∀ x ∈ xs, isFence x = false)
    (fuel : Nat) (inCode : Bool) (zs : List (List Char)) :
    fixLoop (fuel + xs.length) inCode (xs ++ zs) = xs ++ fixLoop fuel inCode zs := by
  induction xs with
  | nil => rfl
  | cons x xs ih =>
      simp only [List.forall_mem_cons] at h
      have hx : ¬IsMerge inCode x (xs ++ zs) := fun hm => by simp [isFence, hm.1] at h
      rw [List.length_cons, ← Nat.add_assoc, List.cons_append, fixLoop_cons,
        fixStep_of_not_merge hx, fenceStep_of_not_isFence h.1, ih h.2]
      rfl

/-- A line that is not a merge before the loop runs over what follows it is not one after. -/
theorem not_isMerge_fixLoop {fuel : Nat} {inCode : Bool} {l : List Char} {ls : List (List Char)}
    (hf : ls.length ≤ fuel) (hmg : ¬IsMerge inCode l ls) :
    ¬IsMerge inCode l (fixLoop fuel (fenceStep inCode l) ls) := by
  rintro ⟨hk, rfl, hne⟩
  refine hmg ⟨hk, rfl, fun hnil => hne ?_⟩
  rw [fenceStep_of_bare hk, Bool.not_true, lookahead_eq_nil_iff, startsOrphanRun_fixLoop hf,
    ← lookahead_eq_nil_iff]
  exact hnil

/-- On a second run, the fence a merge re-emitted is kept with what follows it exactly when
the lookahead from it finds no orphan run and the rest is kept. -/
theorem fixLoop_fence_fixLoop_iff {fuel k : Nat} {after : List (List Char)}
    (hf : after.length ≤ fuel) :
    fixLoop (k + 1) true (fenceMarker :: fixLoop fuel false after) =
        fenceMarker :: fixLoop fuel false after ↔
      (lookahead after).1 = [] ∧
        fixLoop k false (fixLoop fuel false after) = fixLoop fuel false after := by
  have hsame : (lookahead (fixLoop fuel false after)).1 = [] ↔ (lookahead after).1 = [] := by
    rw [lookahead_eq_nil_iff, lookahead_eq_nil_iff, startsOrphanRun_fixLoop hf]
  rw [fixLoop_cons]
  by_cases h2 : (lookahead after).1 = []
  · rw [fixStep_of_not_merge fun hm2 => hm2.2.2 (hsame.2 h2),
      fenceStep_of_bare fenceKind_fenceMarker]
    simp only [List.singleton_append, List.cons.injEq, true_and, h2, Bool.not_true]
  · rw [fixStep_of_merge ⟨fenceKind_fenceMarker, rfl, fun h => h2 (hsame.1 h)⟩]
    simp only [h2, false_and, iff_false]
    intro heq
    cases hY : (lookahead (fixLoop fuel false after)).1 with
    | nil => exact h2 (hsame.1 hY)
    | cons o os2 =>
        have ho := (lookahead_orphan (hY ▸ List.mem_cons_self o os2)).2
        rw [hY] at heq
        simp only [List.cons_append, List.cons.injEq] at heq
        rw [heq.1] at ho
        simp at ho

/-- A second run over the output of a run changes nothing exactly when every merge of the
first run is settled. -/
theorem fixLoop_twice_iff {fuel m : Nat} {inCode : Bool} {ls : List (List Char)}
    (hf : ls.length ≤ fuel) (hm : (fixLoop fuel inCode ls).length ≤ m) :
    fixLoop m inCode (fixLoop fuel inCode ls) = fixLoop fuel inCode ls ↔
      MergesSettled fuel inCode ls := by
  induction fuel generalizing inCode ls m with
  | zero => cases ls <;> simp_all [fixLoop, MergesSettled]
  | succ fuel ih =>
      cases ls with
      | nil => simp [fixLoop, MergesSettled]
      | cons l ls =>
          have hrest := fixStep_rest_length inCode l ls
          simp only [List.length_cons] at hf
          rw [fixLoop_cons] at hm ⊢
          simp only [MergesSettled]
          by_cases hmg : IsMerge inCode l ls
          · obtain ⟨hk, rfl, hne⟩ := hmg
            rw [fixStep_of_merge ⟨hk, rfl, hne⟩] at hm hrest ⊢
            simp only [show IsMerge true l ls from ⟨hk, rfl, hne⟩, true_implies]
            have hor := fun o (ho : o ∈ (lookahead ls).1) => (lookahead_orphan ho).2
            generalize (lookahead ls).1 = os at *
            generalize (lookahead ls).2 = after at *
            simp only [List.append_assoc, List.singleton_append, List.length_append,
              List.length_cons] at hm ⊢
            obtain ⟨k, rfl⟩ : ∃ k, m = k + 1 + os.length := ⟨m - 1 - os.length, by omega⟩
            rw [fixLoop_append_of_not_fence hor, List.append_cancel_left_eq,
              fixLoop_fence_fixLoop_iff (by omega), ih (by omega) (by omega)]
          · rw [fixStep_of_not_merge hmg] at hm hrest ⊢
            simp only [hmg, false_implies, true_and, List.singleton_append,
              List.length_cons] at hm ⊢
            obtain ⟨m, rfl⟩ : ∃ m', m = m' + 1 := ⟨m - 1, by omega⟩
            rw [fixLoop_cons, fixStep_of_not_merge (not_isMerge_fixLoop (by omega) hmg),
              List.singleton_append, List.cons.injEq]
            simp only [true_and]
            exact ih (by omega) (by omega)

/-- `fix_fragmented_blocks` is idempotent on a body exactly when, at every merge of its
run, the lookahead from the fence it re-emits finds no further orphan run. -/
theorem fixFragmentedBlocks_idempotent_iff (content : List Char) :
    fixFragmentedBlocks (fixFragmentedBlocks content) = fixFragmentedBlocks content ↔
      MergesSettled (lines content).length false (lines content) := by
  have hY := lines_fixFragmentedBlocks content
  constructor
  · intro h
    have h' := congrArg lines h
    rw [lines_fixFragmentedBlocks, hY] at h'
    exact (fixLoop_twice_iff le_rfl le_rfl).1 h'
  · intro h
    have h' := (fixLoop_twice_iff le_rfl le_rfl).2 h
    rw [fixFragmentedBlocks, hY, h']
    rfl

/-- The first run merges the first `}` and stops at the blank line after it; the second
run looks ahead from the re-emitted fence and merges the second `}` too. -/
theorem fixFragmentedBlocks_rerun_merges_again :
    fixFragmentedBlocks (fixFragmentedBlocks "```go\nf()\n```\n\x7d\n\n\x7d".toList) ≠
      fixFragmentedBlocks "```go\nf()\n```\n\x7d\n\n\x7d".toList := by
  decide

/-! ### Runs that merge nothing -/

section Transfer

variable {L : List (List Char)}

end Transfer

end DocFix.Mdx
