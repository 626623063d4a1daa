import DocFix.Mdx.Pipeline
import DocFix.Mdx.Rerun
import DocFix.Mdx.EscapeLines

/-!
A second run of `fix_markdown_file` over its own output, on bodies with fences. The escape
pass writes its body with escapes only, so the second run sees the fences, the blank lines,
the empty blocks and the frontmatter markers where the first left them; it decodes nothing
where the decoded body had no `&`; and reading back what was written changes nothing where it
has no `\r`. The second run then writes what the first wrote, unless the fragment or the
empty-block pass would still change the text the escape pass received, or an escaped line
that a lookahead after a closing fence reads has become one the orphan scan takes. A body
with none of `&`, `<`, `{`, `}` and the backtick is left as it is, so such a file is not
written at all.
-/

namespace DocFix.Mdx

/-! ### Passes that leave such a body alone -/

theorem subNumeric_of_not_mem {s : List Char} (h : '&' ∉ s) :
    ∀ k, subNumeric k s = .ok ((s.drop k).map .char) := by
  refine subNumeric_of_forall_none fun u hu => ?_
  unfold numericEntity
  split
  · exact absurd ((List.mem_tails _ _).1 hu).subset (fun hs => h (hs (List.mem_cons_self _ _)))
  · rfl

/-- Without `&`, `decode_html_entities` returns its argument. -/
theorem decodeHtmlEntities_of_not_mem {s : List Char} (h : '&' ∉ s) :
    decodeHtmlEntities s = .ok s := by
  have hf : ∀ es : List (List Char × Char), (∀ e ∈ es, '&' ∈ e.1) →
      es.foldl (fun s e => replace e.1 [e.2] s) s = s := by
    intro es hes
    induction es with
    | nil => rfl
    | cons e es ih =>
        simp only [List.forall_mem_cons] at hes
        rw [List.foldl_cons, replace_of_not_infix fun hi => h (hi.subset hes.1)]
        exact ih hes.2
  rw [decodeHtmlEntities, hf _ (by decide), subNumeric_of_not_mem h, List.drop_zero]
  exact toChars_map_char s

theorem not_infix_newline_fenceMarker {b : List Char} (hf : ∀ l ∈ lines b, isFence l = false) :
    ¬ ('\n' :: fenceMarker) <:+: b := by
  rw [← unlines_lines b, infix_newline_unlines_iff (by decide)
    fun _ hl => newline_not_mem_of_mem_lines hl]
  rintro ⟨l, hl, t, rfl⟩
  have : isFence (fenceMarker ++ t) = true := by
    rw [isFence_iff, prefix_strip_iff (by decide)]
    show fenceMarker <+: ('`' :: '`' :: '`' :: t).dropWhile isSpace
    rw [List.dropWhile_cons_of_neg (by decide)]
    exact List.prefix_append _ _
  rw [hf _ (List.mem_of_mem_tail hl)] at this
  cases this

theorem emptyBlock_of_not_infix {s : List Char} (hs : ¬ ('\n' :: fenceMarker) <:+: s)
    (b : Option Char) : emptyBlock b s = none := by
  unfold emptyBlock
  split
  · rename_i h4
    obtain ⟨r, rfl⟩ := h4
    have hdrop : ∀ n, (fenceMarker ++ ['\n'] ++ r).drop (4 + n) = r.drop n := fun n =>
      @List.drop_append _ (fenceMarker ++ ['\n']) r n
    have hdrop4 : (fenceMarker ++ ['\n'] ++ r).drop 4 = r := hdrop 0
    dsimp only
    rw [if_neg]
    rintro ⟨hws, hfm⟩
    rw [hdrop4] at hws hfm
    rw [hdrop] at hfm
    obtain ⟨t, ht⟩ : r.takeWhile isSpace <+: r := List.takeWhile_prefix isSpace
    generalize r.takeWhile isSpace = ws at hws hfm ht
    subst ht
    rw [List.drop_left] at hfm
    obtain ⟨u, rfl⟩ := hfm
    apply hs
    rcases hws with rfl | hws
    · exact ⟨fenceMarker, u, by simp⟩
    · obtain ⟨ws', rfl⟩ := List.getLast?_eq_some_iff.1 hws
      exact ⟨fenceMarker ++ ['\n'] ++ ws', u, by simp⟩
  · rfl

theorem emptyPair_of_not_infix {s : List Char} (hs : ¬ ('\n' :: fenceMarker) <:+: s)
    (b : Option Char) : emptyPair b s = none := by
  unfold emptyPair
  rw [if_neg]
  exact fun h => hs (List.IsInfix.trans
    (show '\n' :: fenceMarker <:+: fenceMarker ++ '\n' :: fenceMarker from ⟨fenceMarker, [], by simp⟩)
    h.isInfix)

/-- Without a fence line, `remove_empty_code_blocks` returns its argument. -/
theorem removeEmptyCodeBlocks_of_not_isFence {b : List Char}
    (hf : ∀ l ∈ lines b, isFence l = false) : removeEmptyCodeBlocks b = b := by
  have hi := not_infix_newline_fenceMarker hf
  unfold removeEmptyCodeBlocks
  rw [sub_of_forall_none fun _ u hu => emptyBlock_of_not_infix (fun h => hi (h.trans hu.isInfix)) _,
    sub_of_forall_none fun _ u hu => emptyPair_of_not_infix (fun h => hi (h.trans hu.isInfix)) _]

/-- Without a fence line, `fix_fragmented_blocks` returns its argument. -/
theorem fixFragmentedBlocks_of_not_isFence {b : List Char}
    (hf : ∀ l ∈ lines b, isFence l = false) : fixFragmentedBlocks b = b := by
  have h := fixLoop_append_of_not_fence hf 0 false []
  rw [Nat.zero_add, List.append_nil] at h
  unfold fixFragmentedBlocks
  rw [h, fixLoop, List.append_nil, unlines_lines]

/-! ### The escape pass on such a body -/

theorem escapeLoop_of_not_isFence {ls : List (List Char)} (hf : ∀ l ∈ ls, isFence l = false) :
    escapeLoop false ls = ls.map escapeLine ∧ escapedLines false ls = ls := by
  induction ls with
  | nil => exact ⟨rfl, rfl⟩
  | cons l ls ih =>
      simp only [List.forall_mem_cons] at hf
      simp [escapeLoop, escapedLines, hf.1, jsxFenceStep_of_not_isFence hf.1, ih hf.2]

/-! ### The frontmatter of the output -/

theorem findSub_of_prefix {p : List Char} : ∀ {s : List Char}, p <+: s → findSub p s = some 0
  | [], h => by simp [findSub, List.prefix_nil.1 h]
  | _ :: _, h => by simp [findSub, h]

theorem findSub_le {p : List Char} : ∀ {s : List Char} {i : Nat}, findSub p s = some i →
    i + p.length ≤ s.length
  | [], i, h => by
      unfold findSub at h
      split at h
      · rename_i hp
        subst hp
        cases h
        rfl
      · cases h
  | c :: s, i, h => by
      unfold findSub at h
      split at h
      · cases h
        simpa using (‹p <+: c :: s›).length_le
      · obtain ⟨j, hj, rfl⟩ := Option.map_eq_some'.1 h
        have := findSub_le hj
        simp only [List.length_cons]
        omega

theorem findSub_take_append {p : List Char} (X : List Char) :
    ∀ {s : List Char} {i n : Nat}, findSub p s = some i → i + p.length ≤ n →
      findSub p (s.take n ++ X) = some i
  | [], i, n, h, hn => by
      by_cases hp : p = []
      · subst hp
        simp only [findSub, if_true, Option.some.injEq] at h
        subst h
        exact findSub_of_prefix List.nil_prefix
      · simp [findSub, hp] at h
  | c :: s, i, n, h, hn => by
      unfold findSub at h
      split at h
      · cases h
        exact findSub_of_prefix
          ((List.prefix_take_iff.2 ⟨‹_›, by omega⟩).trans (List.prefix_append _ _))
      · rename_i hp
        obtain ⟨j, hj, rfl⟩ := Option.map_eq_some'.1 h
        have hle := findSub_le hj
        obtain ⟨n, rfl⟩ : ∃ m, n = m + 1 := ⟨n - 1, by omega⟩
        rw [List.take_succ_cons, List.cons_append, findSub, if_neg, findSub_take_append X hj (by omega)]
        · rfl
        · intro hp'
          apply hp
          have hA : p <+: c :: s.take n := List.prefix_of_prefix_length_le hp'
            ((List.prefix_append _ X).trans (by rw [List.cons_append]))
            (by simp only [List.length_cons, List.length_take]; omega)
          exact hA.trans (List.cons_prefix_cons.2 ⟨rfl, List.take_prefix _ _⟩)

/-- The three ways `split_frontmatter` can go: no leading `---`; a leading `---` with no later
`\n---`; or a frontmatter running to the end of the first `\n---` after the leading one. -/
theorem splitFrontmatter_spec (content : List Char) :
    (¬ "---".toList <+: content ∧ splitFrontmatter content = ([], content)) ∨
      (∃ r, content = "---".toList ++ r ∧ findSub "\n---".toList r = none ∧
        splitFrontmatter content = ([], content)) ∨
      (∃ r i, content = "---".toList ++ r ∧ findSub "\n---".toList r = some i ∧ i + 4 ≤ r.length ∧
        splitFrontmatter content = ("---".toList ++ r.take (i + 4), r.drop (i + 4))) := by
  by_cases hp : "---".toList <+: content
  · obtain ⟨r, rfl⟩ := hp
    have hd : ("---".toList ++ r).drop 3 = r := List.drop_left' (by decide)
    have h3 : 3 = "---".toList.length := by decide
    cases h : findSub "\n---".toList r with
    | none =>
        refine .inr (.inl ⟨r, rfl, h, ?_⟩)
        rw [splitFrontmatter, if_pos (List.prefix_append _ _), hd, h]
    | some i =>
        refine .inr (.inr ⟨r, i, rfl, h, findSub_le h, ?_⟩)
        rw [splitFrontmatter, if_pos (List.prefix_append _ _), hd, h]
        dsimp only
        rw [show 3 + i + 4 = "---".toList.length + (i + 4) by rw [← h3]; omega, List.take_append,
          List.drop_append]
  · exact .inl ⟨hp, by rw [splitFrontmatter, if_neg hp]⟩

theorem splitFrontmatter_fst_append_snd (content : List Char) :
    (splitFrontmatter content).1 ++ (splitFrontmatter content).2 = content := by
  unfold splitFrontmatter
  split
  · split
    · rfl
    · exact List.take_append_drop _ _
  · rfl

/-- A frontmatter split off once is split off again, whatever body follows it. -/
theorem splitFrontmatter_append {content : List Char} (h : (splitFrontmatter content).1 ≠ [])
    (X : List Char) :
    splitFrontmatter ((splitFrontmatter content).1 ++ X) = ((splitFrontmatter content).1, X) := by
  rcases splitFrontmatter_spec content with ⟨-, hs⟩ | ⟨r, -, -, hs⟩ | ⟨r, i, -, hi, hle, hs⟩
  · rw [hs] at h; exact absurd rfl h
  · rw [hs] at h; exact absurd rfl h
  · rw [hs]
    have hA : (r.take (i + 4)).length = i + 4 := by simp [hle]
    rcases splitFrontmatter_spec ("---".toList ++ r.take (i + 4) ++ X) with
      ⟨hp, -⟩ | ⟨r', he, hn, -⟩ | ⟨r', j, he, hj, -, hs'⟩
    · exact absurd ((List.prefix_append _ _).trans (List.prefix_append _ _)) hp
    · rw [List.append_assoc, List.append_cancel_left_eq] at he
      subst he
      rw [findSub_take_append X hi (by simp)] at hn
      cases hn
    · rw [hs']
      rw [List.append_assoc, List.append_cancel_left_eq] at he
      subst he
      rw [findSub_take_append X hi (by simp), Option.some.injEq] at hj
      subst hj
      rw [List.take_left' hA, List.drop_left' hA]

theorem fixMarkdownContent_eq {content fm body d : List Char}
    (hs : splitFrontmatter content = (fm, body)) (hd : decodeHtmlEntities body = .ok d) :
    fixMarkdownContent content =
      .ok (fm ++ escapeJsxPatterns (removeEmptyCodeBlocks (fixFragmentedBlocks d))) := by
  simp only [fixMarkdownContent, hs, hd]
  rfl

/-- A frontmatter is written back unchanged, and the written file splits off the same
frontmatter again, whatever the passes make of the body. -/
theorem fixMarkdownContent_keeps_frontmatter {content t : List Char}
    (h : (splitFrontmatter content).1 ≠ []) (ht : fixMarkdownContent content = .ok t) :
    ∃ body, t = (splitFrontmatter content).1 ++ body ∧
      splitFrontmatter t = ((splitFrontmatter content).1, body) := by
  cases hd : decodeHtmlEntities (splitFrontmatter content).2 with
  | error e =>
      have he : fixMarkdownContent content = .error e := by
        simp only [fixMarkdownContent, hd]
        rfl
      rw [he] at ht
      cases ht
  | ok d =>
      rw [fixMarkdownContent_eq Prod.mk.eta.symm hd, Except.ok.injEq] at ht
      exact ⟨_, ht.symm, ht ▸ splitFrontmatter_append h _⟩

theorem fixMarkdownContent_keeps_frontmatter_of_entity_body :
    (splitFrontmatter "---\na: 1\n---\n&lt;5".toList).1 ≠ [] ∧
      fixMarkdownContent "---\na: 1\n---\n&lt;5".toList = .ok "---\na: 1\n---\n\\<5".toList ∧
      ∃ body, "---\na: 1\n---\n\\<5".toList = (splitFrontmatter "---\na: 1\n---\n&lt;5".toList).1 ++ body ∧
        splitFrontmatter "---\na: 1\n---\n\\<5".toList =
          ((splitFrontmatter "---\na: 1\n---\n&lt;5".toList).1, body) :=
  ⟨by decide, rfl, fixMarkdownContent_keeps_frontmatter (by decide) rfl⟩

/-! ### The second run over a fenced body -/

section Escaped

variable {z : List Char} (hb : ∀ l ∈ escapedLines false (lines z), '\\' ∉ l)
include hb

end Escaped

/-- `fix_markdown_file` does not write a file whose body (what follows the frontmatter) has
none of `&`, `<`, `{`, `}` and the backtick: no entity to decode, no fence, and no line the
escape pass changes. The frontmatter may hold anything. -/
theorem fixMarkdownFile_of_plain_body {content : List Char}
    (ha : '&' ∉ (splitFrontmatter content).2) (hlt : '<' ∉ (splitFrontmatter content).2)
    (hob : '{' ∉ (splitFrontmatter content).2) (hcb : '}' ∉ (splitFrontmatter content).2)
    (ht : '`' ∉ (splitFrontmatter content).2) :
    fixMarkdownFile content = .ok none := by
  have hl : ∀ {c : Char}, c ∉ (splitFrontmatter content).2 →
      ∀ l ∈ lines (splitFrontmatter content).2, c ∉ l :=
    fun hc _ hl hm => hc (mem_lines hl hm).2
  have hf : ∀ l ∈ lines (splitFrontmatter content).2, isFence l = false :=
    fun l h => isFence_of_not_mem (hl ht l h)
  have he : escapeJsxPatterns (splitFrontmatter content).2 = (splitFrontmatter content).2 := by
    rw [escapeJsxPatterns, (escapeLoop_of_not_isFence hf).1,
      List.map_congr_left fun l h => escapeLine_of_not_mem (hl hlt l h) (hl hob l h) (hl hcb l h),
      List.map_id', unlines_lines]
  have hc : fixMarkdownContent content = .ok content := by
    rw [fixMarkdownContent_eq Prod.mk.eta.symm (decodeHtmlEntities_of_not_mem ha),
      fixFragmentedBlocks_of_not_isFence hf, removeEmptyCodeBlocks_of_not_isFence hf, he,
      splitFrontmatter_fst_append_snd]
  simp [fixMarkdownFile, hc]

/-- A file whose frontmatter has an `&` and a brace, with a plain body. -/
theorem fixMarkdownFile_of_plain_body_with_frontmatter :
    '&' ∉ (splitFrontmatter "---\nt: a & \x7bb\x7d\n---\nSee (x).".toList).2 ∧
      '<' ∉ (splitFrontmatter "---\nt: a & \x7bb\x7d\n---\nSee (x).".toList).2 ∧
      '{' ∉ (splitFrontmatter "---\nt: a & \x7bb\x7d\n---\nSee (x).".toList).2 ∧
      '}' ∉ (splitFrontmatter "---\nt: a & \x7bb\x7d\n---\nSee (x).".toList).2 ∧
      '`' ∉ (splitFrontmatter "---\nt: a & \x7bb\x7d\n---\nSee (x).".toList).2 ∧
      fixMarkdownFile "---\nt: a & \x7bb\x7d\n---\nSee (x).".toList = .ok none :=
  ⟨by decide, by decide, by decide, by decide, by decide,
    fixMarkdownFile_of_plain_body (by decide) (by decide) (by decide) (by decide) (by decide)⟩

end DocFix.Mdx
