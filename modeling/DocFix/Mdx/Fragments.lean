import DocFix.Mdx.Classify

/-!
`fix_fragmented_blocks`: one forward pass over the lines of a body. At a closing fence it
looks ahead past at most one blank line for code lines left outside the block, and when it
finds such an orphan run it moves the closing fence after it. One iteration of the source's
`while` loop is `fixStep`; `fixLoop` runs it over the lines, with the number of lines as
fuel. `code_lang` is written by the source and never read, so it is not modelled.
-/

namespace DocFix.Mdx

/-- The lines that stop the orphan scan: a heading, a fence, or clear markdown text. -/
def stopsScan (l : List Char) : Bool :=
  "#".toList.isPrefixOf (strip l) || isFence l || isMarkdownText l

/-- The orphan-collecting `while` loop of the lookahead. `started` is `bool(orphan_code)`.
It returns the orphan run and the lines from the one where the scan stopped. -/
def orphanScan (started : Bool) : List (List Char) → List (List Char) × List (List Char)
  | [] => ([], [])
  | l :: ls =>
      if stopsScan l then ([], l :: ls)
      else if isCodeContinuation l || (started && !(strip l).isEmpty) then
        let r := orphanScan true ls
        (l :: r.1, r.2)
      else ([], l :: ls)

/-- The lookahead at a closing fence, on the lines after it: the blank lines are counted,
and only after at most one of them is the orphan scan run. It returns the orphan run and
the lines after it. -/
def lookahead (after : List (List Char)) : List (List Char) × List (List Char) :=
  let rest := after.dropWhile isBlank
  if (after.takeWhile isBlank).length ≤ 1 ∧ rest ≠ [] then orphanScan false rest
  else ([], rest)

/-- One iteration of the main loop on `line`, with `ls` the lines after it: the lines it
appends to `result`, the new `in_code_block`, and the lines left to scan. -/
def fixStep (inCode : Bool) (line : List Char) (ls : List (List Char)) :
    List (List Char) × Bool × List (List Char) :=
  match fenceKind line with
  | some .tagged => ([line], true, ls)
  | some .bare =>
      if inCode then
        let r := lookahead ls
        if r.1 ≠ [] then (r.1 ++ [fenceMarker], false, r.2) else ([line], false, ls)
      else ([line], true, ls)
  | some .other => ([line], !inCode, ls)
  | none => ([line], inCode, ls)

/-- The main loop from `in_code_block = inCode`. -/
def fixLoop : Nat → Bool → List (List Char) → List (List Char)
  | _, _, [] => []
  | 0, _, _ :: _ => []
  | fuel + 1, inCode, line :: ls =>
      let r := fixStep inCode line ls
      r.1 ++ fixLoop fuel r.2.1 r.2.2

/-- `fix_fragmented_blocks(content)`. -/
def fixFragmentedBlocks (content : List Char) : List Char :=
  unlines (fixLoop (lines content).length false (lines content))

/-! ### The orphan scan and the lookahead -/

theorem orphanScan_append (started : Bool) (ls : List (List Char)) :
    (orphanScan started ls).1 ++ (orphanScan started ls).2 = ls := by
  induction ls generalizing started with
  | nil => rfl
  | cons l ls ih =>
      simp only [orphanScan]
      split
      · rfl
      · split
        · simp [ih]
        · rfl

theorem orphanScan_orphan {started : Bool} {ls : List (List Char)} {o : List Char}
    (h : o ∈ (orphanScan started ls).1) : isBlank o = false ∧ isFence o = false := by
  induction ls generalizing started with
  | nil => simp [orphanScan] at h
  | cons l ls ih =>
      simp only [orphanScan] at h
      split at h
      · simp at h
      · rename_i hstop
        split at h
        · rcases List.mem_cons.1 h with rfl | h
          · simp only [stopsScan, Bool.or_eq_true, not_or, Bool.not_eq_true] at hstop
            refine ⟨?_, hstop.1.2⟩
            cases hb : isBlank o
            · rfl
            · simp [isMarkdownText_of_isBlank hb] at hstop
          · exact ih h
        · simp at h

/-- What a lookahead that finds orphans has passed over: at most one blank line, the
orphan run, then the lines it returns. -/
theorem lookahead_spec {after : List (List Char)} (h : (lookahead after).1 ≠ []) :
    ∃ gap, after = gap ++ (lookahead after).1 ++ (lookahead after).2 ∧ gap.length ≤ 1 ∧
      ∀ g ∈ gap, isBlank g = true := by
  dsimp only [lookahead] at h ⊢
  split at h
  · rename_i hc
    refine ⟨after.takeWhile isBlank, ?_, hc.1, fun g hg => List.mem_takeWhile_imp hg⟩
    simp only [if_pos hc, List.append_assoc, orphanScan_append,
      List.takeWhile_append_dropWhile]
  · simp at h

theorem lookahead_orphan {after : List (List Char)} {o : List Char}
    (h : o ∈ (lookahead after).1) : isBlank o = false ∧ isFence o = false := by
  dsimp only [lookahead] at h
  split at h
  · exact orphanScan_orphan h
  · simp at h

/-! ### One step and the loop -/

/-- The iteration on `line` merges an orphan run: a bare fence inside a block, with an
orphan run in the lookahead. -/
def IsMerge (inCode : Bool) (line : List Char) (ls : List (List Char)) : Prop :=
  fenceKind line = some .bare ∧ inCode = true ∧ (lookahead ls).1 ≠ []

theorem fixStep_of_not_merge {inCode : Bool} {line : List Char} {ls : List (List Char)}
    (h : ¬IsMerge inCode line ls) : fixStep inCode line ls = ([line], fenceStep inCode line, ls) := by
  unfold IsMerge at h
  cases hk : fenceKind line with
  | none => simp [fixStep, fenceStep, hk]
  | some k =>
      cases k with
      | tagged | other => simp [fixStep, fenceStep, hk]
      | bare => cases inCode <;> simp_all [fixStep, fenceStep]

theorem fixStep_of_merge {inCode : Bool} {line : List Char} {ls : List (List Char)}
    (h : IsMerge inCode line ls) :
    fixStep inCode line ls = ((lookahead ls).1 ++ [fenceMarker], false, (lookahead ls).2) := by
  obtain ⟨hk, rfl, hne⟩ := h
  simp [fixStep, hk, hne]

/-- Everything one iteration can do: pass the line through under the fence rule, or move
the closing fence after an orphan run. -/
theorem fixStep_cases (inCode : Bool) (line : List Char) (ls : List (List Char)) :
    fixStep inCode line ls = ([line], fenceStep inCode line, ls) ∨
      (IsMerge inCode line ls ∧
        fixStep inCode line ls =
          ((lookahead ls).1 ++ [fenceMarker], false, (lookahead ls).2)) := by
  by_cases h : IsMerge inCode line ls
  · exact .inr ⟨h, fixStep_of_merge h⟩
  · exact .inl (fixStep_of_not_merge h)

/-- A closing fence, one blank line and `}`: the `}` is moved into the block. -/
example : fixStep true fenceMarker [[], ['\x7d']] = ([['\x7d'], fenceMarker], false, []) := by
  decide

/-- A closing fence, one blank line and a long line of prose: the fence closes the block. -/
example : fixStep true fenceMarker [[], "Prose here has well over ten words and no code at all.".toList] =
    ([fenceMarker], false, [[], "Prose here has well over ten words and no code at all.".toList]) := by
  decide

theorem fixStep_rest_length (inCode : Bool) (line : List Char) (ls : List (List Char)) :
    (fixStep inCode line ls).2.2.length ≤ ls.length := by
  rcases fixStep_cases inCode line ls with h | ⟨⟨-, -, hne⟩, h⟩
  · simp [h]
  · obtain ⟨gap, hls, -⟩ := lookahead_spec hne
    have hlen := congrArg List.length hls
    simp only [List.length_append] at hlen
    rw [h]
    dsimp only
    omega

theorem fixLoop_cons (fuel : Nat) (inCode : Bool) (line : List Char) (ls : List (List Char)) :
    fixLoop (fuel + 1) inCode (line :: ls) =
      (fixStep inCode line ls).1 ++
        fixLoop fuel (fixStep inCode line ls).2.1 (fixStep inCode line ls).2.2 := rfl

/-- Each iteration consumes its own line at least, so fuel for every line is enough: the
source's loop ends within as many iterations as the body has lines, and more fuel changes
nothing. -/
theorem fixLoop_fuel_eq {f₁ f₂ : Nat} {inCode : Bool} {ls : List (List Char)}
    (h₁ : ls.length ≤ f₁) (h₂ : ls.length ≤ f₂) : fixLoop f₁ inCode ls = fixLoop f₂ inCode ls := by
  induction f₁ generalizing f₂ inCode ls with
  | zero =>
      cases ls with
      | nil => cases f₂ <;> rfl
      | cons => simp at h₁
  | succ f ih =>
      cases ls with
      | nil => cases f₂ <;> rfl
      | cons line ls =>
          obtain ⟨g, rfl⟩ : ∃ g, f₂ = g + 1 := ⟨f₂ - 1, by simp at h₂; omega⟩
          have hr := fixStep_rest_length inCode line ls
          simp only [List.length_cons] at h₁ h₂
          rw [fixLoop_cons, fixLoop_cons, @ih g _ _ (by omega) (by omega)]

theorem fixLoop_fuel_eq_on_merge :
    (lines "```go\nf()\n```\n\x7d".toList).length ≤ 4 ∧
      (lines "```go\nf()\n```\n\x7d".toList).length ≤ 10 ∧
      fixLoop 4 false (lines "```go\nf()\n```\n\x7d".toList) =
        fixLoop 10 false (lines "```go\nf()\n```\n\x7d".toList) :=
  ⟨by decide, by decide, fixLoop_fuel_eq (by decide) (by decide)⟩

/-- Every output line is an input line or a re-emitted fence. -/
theorem mem_fixLoop {fuel : Nat} {inCode : Bool} {ls : List (List Char)} {l : List Char}
    (h : l ∈ fixLoop fuel inCode ls) : l ∈ ls ∨ l = fenceMarker := by
  induction fuel generalizing inCode ls with
  | zero => cases ls <;> simp [fixLoop] at h
  | succ fuel ih =>
      cases ls with
      | nil => simp [fixLoop] at h
      | cons line ls =>
          rw [fixLoop_cons, List.mem_append] at h
          rcases h with h | h
          · rcases fixStep_cases inCode line ls with hs | ⟨⟨-, -, hne⟩, hs⟩ <;> rw [hs] at h
            · simp_all
            · obtain ⟨gap, hls, -⟩ := lookahead_spec hne
              simp only [List.mem_append, List.mem_singleton] at h
              rcases h with h | h
              · exact .inl (List.mem_cons_of_mem _ (hls ▸ by simp [h]))
              · exact .inr h
          · rcases ih h with h | h
            · rcases fixStep_cases inCode line ls with hs | ⟨⟨-, -, hne⟩, hs⟩ <;> rw [hs] at h
              · exact .inl (List.mem_cons_of_mem _ h)
              · obtain ⟨gap, hls, -⟩ := lookahead_spec hne
                exact .inl (List.mem_cons_of_mem _ (hls ▸ by simp [h]))
            · exact .inr h

theorem fixLoop_ne_nil {fuel : Nat} {inCode : Bool} {ls : List (List Char)}
    (hne : ls ≠ []) (hf : ls.length ≤ fuel) : fixLoop fuel inCode ls ≠ [] := by
  cases fuel with
  | zero => cases ls <;> simp_all
  | succ fuel =>
      cases ls with
      | nil => exact absurd rfl hne
      | cons line ls =>
          rw [fixLoop_cons]
          rcases fixStep_cases inCode line ls with hs | ⟨-, hs⟩ <;> rw [hs] <;> simp

/-- The lines of the written body are the loop's output. -/
theorem lines_fixFragmentedBlocks (content : List Char) :
    lines (fixFragmentedBlocks content) =
      fixLoop (lines content).length false (lines content) := by
  apply lines_unlines
  · intro l hl
    rcases mem_fixLoop hl with h | rfl
    · exact newline_not_mem_of_mem_lines h
    · decide
  · exact fixLoop_ne_nil (lines_ne_nil content) le_rfl

end DocFix.Mdx
