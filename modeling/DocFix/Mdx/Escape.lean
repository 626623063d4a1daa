import DocFix.Mdx.Classify

/-!
`escape_jsx_patterns`: outside fenced blocks, every line goes through an ordered list of
substitutions that escape what MDX would read as JSX. The pass keeps its own fence state,
with a rule of its own: a fence whose tag is neither empty nor alphabetic (such as
```` ```{r} ````) leaves the state alone, where `fix_fragmented_blocks` toggles it.
-/

namespace DocFix.Mdx

/-! ### The substitutions, each a matcher for `reSub` -/

/-- `(?<!\\)<(\d)`, replaced by `\\<\1`. -/
def ltDigit (before : Option Char) : List Char → Option (Nat × List Char)
  | '<' :: d :: _ =>
      if before ≠ some '\\' ∧ isDigit d = true then some (2, ['\\', '<', d]) else none
  | _ => none

/-- `(?<!\\)<-chan`, replaced by `\\<-chan`. -/
def ltChan (before : Option Char) : List Char → Option (Nat × List Char)
  | '<' :: '-' :: 'c' :: 'h' :: 'a' :: 'n' :: _ =>
      if before ≠ some '\\' then some (6, '\\' :: "<-chan".toList) else none
  | _ => none

/-- `(?<!\\)<-(?![a-zA-Z])`, replaced by `\\<-`. -/
def ltDash (before : Option Char) : List Char → Option (Nat × List Char)
  | '<' :: '-' :: rest =>
      if before ≠ some '\\' ∧ rest.head?.any Char.isAlpha = false then
        some (2, ['\\', '<', '-'])
      else none
  | _ => none

/-- `(?<!\\)\{\}`, replaced by `\\{\\}`. -/
def emptyBraces (before : Option Char) : List Char → Option (Nat × List Char)
  | '{' :: '}' :: _ => if before ≠ some '\\' then some (2, ['\\', '{', '\\', '}']) else none
  | _ => none

/-- The class `[^{}]`. -/
def notBrace (c : Char) : Bool := c != '{' && c != '}'

/-- `(?<!\\)\{([^{}]+)\}`, replaced by `\\{\1\\}`. -/
def bracedWord (before : Option Char) : List Char → Option (Nat × List Char)
  | '{' :: rest =>
      let g := rest.takeWhile notBrace
      if before ≠ some '\\' ∧ g ≠ [] ∧ (rest.drop g.length).head? = some '}' then
        some (g.length + 2, '\\' :: '{' :: g ++ ['\\', '}'])
      else none
  | _ => none

/-- `(?<!\\)\{\{-?`, replaced by `\\{\\{`. -/
def helmOpen (before : Option Char) : List Char → Option (Nat × List Char)
  | '{' :: '{' :: rest =>
      if before ≠ some '\\' then
        some (if rest.head? = some '-' then 3 else 2, ['\\', '{', '\\', '{'])
      else none
  | _ => none

/-- `-?(?<!\\)\}\}`, replaced by `\\}\\}`. With the dash taken, the lookbehind reads the
dash and always passes. -/
def helmClose (before : Option Char) : List Char → Option (Nat × List Char)
  | '-' :: '}' :: '}' :: _ => some (3, ['\\', '}', '\\', '}'])
  | '}' :: '}' :: _ => if before ≠ some '\\' then some (2, ['\\', '}', '\\', '}']) else none
  | _ => none

/-- The body of the loop for a line outside a block. -/
def escapeLine (line : List Char) : List Char :=
  let line := replace ['\\', '\\', '{'] ['\\', '{'] line
  let line := replace ['\\', '\\', '}'] ['\\', '}'] line
  let line := replace ['\\', '\\', '<'] ['\\', '<'] line
  let line := sub ltDigit line
  let line := sub ltChan line
  let line := sub ltDash line
  let line := if '`' ∉ line then sub emptyBraces line else line
  let line := if "-->".toList <:+: line then sub bracedWord line else line
  if '`' ∉ line then sub helmClose (sub helmOpen line) else line

/-! ### The loop -/

/-- The fence rule of `escape_jsx_patterns`: a tagged fence opens a block, a bare fence
toggles the state, any other fence leaves it. -/
def jsxFenceStep (inCode : Bool) (line : List Char) : Bool :=
  match fenceKind line with
  | some .tagged => true
  | some .bare => !inCode
  | some .other => inCode
  | none => inCode

/-- The loop from `in_code_block = inCode`: fence lines and lines inside a block are kept,
the others escaped. -/
def escapeLoop : Bool → List (List Char) → List (List Char)
  | _, [] => []
  | inCode, line :: ls =>
      (if isFence line || inCode then line else escapeLine line) ::
        escapeLoop (jsxFenceStep inCode line) ls

/-- `escape_jsx_patterns(content)`. -/
def escapeJsxPatterns (content : List Char) : List Char :=
  unlines (escapeLoop false (lines content))

theorem jsxFenceStep_eq_fenceStep {line : List Char} (h : fenceKind line ≠ some .other)
    (inCode : Bool) : jsxFenceStep inCode line = fenceStep inCode line := by
  unfold jsxFenceStep fenceStep
  split <;> simp_all

/-- Where no fence has a tag that is neither empty nor alphabetic, the pass follows the
fence rule of `fix_fragmented_blocks`: it escapes exactly the lines that rule places
outside every block, and keeps every other line. -/
theorem escapeLoop_eq_of_no_other_fence {inCode : Bool} {ls : List (List Char)}
    (h : ∀ l ∈ ls, fenceKind l ≠ some .other) :
    escapeLoop inCode ls =
      (annotate inCode ls).map fun p => if isFence p.1 || p.2 then p.1 else escapeLine p.1 := by
  induction ls generalizing inCode with
  | nil => rfl
  | cons l ls ih =>
      simp only [List.forall_mem_cons] at h
      simp only [escapeLoop, annotate, List.map_cons, jsxFenceStep_eq_fenceStep h.1, ih h.2]

theorem escapeLoop_eq_of_no_other_fence_on_go_block :
    (∀ l ∈ lines "```go\n<5\n```\n<5".toList, fenceKind l ≠ some .other) ∧
      escapeLoop false (lines "```go\n<5\n```\n<5".toList) =
        (annotate false (lines "```go\n<5\n```\n<5".toList)).map
          fun p => if isFence p.1 || p.2 then p.1 else escapeLine p.1 :=
  ⟨by decide, escapeLoop_eq_of_no_other_fence (by decide)⟩

/-- On a block opened by ```` ```{r} ```` the two fence rules part: the rule of
`fix_fragmented_blocks` puts the line `<5` inside the block, and `escape_jsx_patterns`
escapes it. -/
theorem escapeJsxPatterns_escapes_inside_brace_tagged_block :
    (annotate false (lines "```\x7br\x7d\n<5\n```".toList)).map Prod.snd = [false, true, true] ∧
      escapeJsxPatterns "```\x7br\x7d\n<5\n```".toList = "```\x7br\x7d\n\\<5\n```".toList := by
  decide

/-- The normalisation turns `\\{` into `\{` once per call, so a run of three backslashes
before a brace loses one backslash on every run. -/
theorem escapeJsxPatterns_rerun_unescapes :
    escapeJsxPatterns (escapeJsxPatterns "\\\\\\\x7b".toList) ≠ escapeJsxPatterns "\\\\\\\x7b".toList := by
  decide

end DocFix.Mdx
