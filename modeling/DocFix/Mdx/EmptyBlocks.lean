import DocFix.Mdx.Classify

/-!
`remove_empty_code_blocks`: two regex substitutions that delete a fence marker, a newline,
whitespace lines and a fence marker. Neither pattern is anchored to the start of a line or
knows which fence opens a block, so a closing fence and the next block's opening fence
also match.
-/

namespace DocFix.Mdx

/-- ```` ```\n(\s*\n)*``` ````. After the first marker and newline, `(\s*\n)*` can only end
where the whitespace run ends, since a backtick follows it; it matches when that run is
empty or ends with a newline. -/
def emptyBlock (_ : Option Char) (s : List Char) : Option (Nat × List Char) :=
  if (fenceMarker ++ ['\n']) <+: s then
    let ws := (s.drop 4).takeWhile isSpace
    if (ws = [] ∨ ws.getLast? = some '\n') ∧ fenceMarker <+: s.drop (4 + ws.length) then
      some (4 + ws.length + 3, [])
    else none
  else none

/-- ```` ```\n``` ````. -/
def emptyPair (_ : Option Char) (s : List Char) : Option (Nat × List Char) :=
  if (fenceMarker ++ '\n' :: fenceMarker) <+: s then some (7, []) else none

/-- `remove_empty_code_blocks(content)`. -/
def removeEmptyCodeBlocks (content : List Char) : List Char :=
  sub emptyPair (sub emptyBlock content)

/-- Two blocks, the second with a language tag: the first pattern matches from the first
block's closing fence to the second block's opening marker, so both fences go and `go`
becomes a line of one merged block. -/
theorem removeEmptyCodeBlocks_joins_adjacent_blocks :
    removeEmptyCodeBlocks "```\nx\n```\n```go\ny\n```".toList = "```\nx\ngo\ny\n```".toList := by
  decide

/-- Both patterns are replaced by nothing, so the pass only deletes characters: what it
writes is its input with some characters left out, in their order. -/
theorem removeEmptyCodeBlocks_sublist (content : List Char) :
    List.Sublist (removeEmptyCodeBlocks content) content := by
  have hb : ∀ b s k r, emptyBlock b s = some (k, r) → r = [] := by
    intro b s k r h
    simp only [emptyBlock] at h
    split_ifs at h
    exact (Prod.mk.inj (Option.some.inj h)).2.symm
  have hp : ∀ b s k r, emptyPair b s = some (k, r) → r = [] := by
    intro b s k r h
    simp only [emptyPair] at h
    split_ifs at h
    exact (Prod.mk.inj (Option.some.inj h)).2.symm
  exact (reSub_sublist hp 0 none _).trans (reSub_sublist hb 0 none content)

/-- A fence, a blank line and a fence go entirely. -/
example : removeEmptyCodeBlocks "```\n\n```".toList = [] := by decide

/-! ### What the two patterns can delete -/

/-- What the first pattern matches: a fence marker, a newline, a run of whitespace that is
empty or ends with a newline, and a fence marker. -/
theorem emptyBlock_eq_some {b : Option Char} {s r : List Char} {k : Nat}
    (h : emptyBlock b s = some (k, r)) :
    ∃ ws u, s = fenceMarker ++ '\n' :: (ws ++ fenceMarker ++ u) ∧ (∀ c ∈ ws, isSpace c = true) ∧
      (ws = [] ∨ ws.getLast? = some '\n') ∧ k = ws.length + 7 ∧ r = [] := by
  unfold emptyBlock at h
  dsimp only at h
  split_ifs at h with h1 h2
  obtain ⟨t, rfl⟩ := h1
  have hd : ∀ n, (fenceMarker ++ ['\n'] ++ t).drop (4 + n) = t.drop n :=
    fun n => @List.drop_append _ (fenceMarker ++ ['\n']) t n
  rw [show (fenceMarker ++ ['\n'] ++ t).drop 4 = t from hd 0] at h h2
  rw [hd] at h2
  obtain ⟨rfl, rfl⟩ := Prod.mk.inj (Option.some.inj h)
  obtain ⟨hw, u, hu⟩ := h2
  refine ⟨t.takeWhile isSpace, u, ?_, fun c hc => List.mem_takeWhile_imp hc, hw, by omega, rfl⟩
  set ws := t.takeWhile isSpace
  have ht : t = ws ++ t.dropWhile isSpace := (List.takeWhile_append_dropWhile isSpace t).symm
  rw [ht, List.drop_left] at hu
  rw [ht, ← hu]
  simp

/-- A match of the first pattern is backticks and whitespace only. -/
theorem emptyBlock_only_marks {b : Option Char} {s r : List Char} {k : Nat}
    (h : emptyBlock b s = some (k, r)) :
    0 < k ∧ r = [] ∧ ∀ c ∈ s.take k, (!isSpace c && c != '\x60') = false := by
  obtain ⟨ws, u, rfl, hws, -, rfl, rfl⟩ := emptyBlock_eq_some h
  refine ⟨by omega, rfl, fun c hc => ?_⟩
  rw [show fenceMarker ++ '\n' :: (ws ++ fenceMarker ++ u) =
      (fenceMarker ++ '\n' :: (ws ++ fenceMarker)) ++ u by simp,
    List.take_left' (by simp [fenceMarker])] at hc
  simp [fenceMarker] at hc
  rcases hc with rfl | rfl | hc | rfl
  · decide
  · decide
  · simp [hws c hc]
  · decide

/-- A match of the second pattern is backticks and a newline. -/
theorem emptyPair_only_marks {b : Option Char} {s r : List Char} {k : Nat}
    (h : emptyPair b s = some (k, r)) :
    0 < k ∧ r = [] ∧ ∀ c ∈ s.take k, (!isSpace c && c != '\x60') = false := by
  simp only [emptyPair] at h
  split_ifs at h with h1
  obtain ⟨rfl, rfl⟩ := Prod.mk.inj (Option.some.inj h)
  obtain ⟨t, rfl⟩ := h1
  refine ⟨by omega, rfl, fun c hc => ?_⟩
  rw [List.take_left' (by decide)] at hc
  simp [fenceMarker] at hc
  rcases hc with rfl | rfl | rfl <;> decide

/-- The pass deletes backticks and whitespace only: every other character of the input is
in the output, in its order and as many times. -/
theorem removeEmptyCodeBlocks_keeps_text (content : List Char) :
    (removeEmptyCodeBlocks content).filter (fun c => !isSpace c && c != '\x60') =
      content.filter (fun c => !isSpace c && c != '\x60') := by
  rw [removeEmptyCodeBlocks, sub, sub,
    reSub_filter (fun _ _ _ _ => emptyPair_only_marks) 0 none _ (by simp),
    reSub_filter (fun _ _ _ _ => emptyBlock_only_marks) 0 none _ (by simp)]

/-! ### Texts the pass gives back -/

end DocFix.Mdx
