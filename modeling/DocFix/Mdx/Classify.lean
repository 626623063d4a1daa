import DocFix.Text.Basic

/-!
The line classifiers of `fix_mdx.py`: the fence test that `fix_fragmented_blocks` and
`escape_jsx_patterns` each write out, and the two heuristics `is_code_continuation` and
`is_markdown_text` that the orphan lookahead consults. Every regex here is anchored at
the start of the line, as `re.match` is.
-/

namespace DocFix.Mdx

/-- The three kinds of fence line, by `rest = stripped[3:].strip()`. -/
inductive FenceKind
  /-- `rest` starts with a letter: an opening fence with a language. -/
  | tagged
  /-- `rest` is empty. -/
  | bare
  /-- Any other `rest`, such as `{r}` or a fourth backtick. -/
  | other
  deriving DecidableEq, Repr

/-- The fence marker. -/
def fenceMarker : List Char := "```".toList

/-- The fence test: `stripped.startswith('```')`, then the first character of
`stripped[3:].strip()`. -/
def fenceKind (line : List Char) : Option FenceKind :=
  let stripped := strip line
  if fenceMarker <+: stripped then
    match strip (stripped.drop 3) with
    | [] => some .bare
    | c :: _ => if isAlpha c then some .tagged else some .other
  else none

/-- A fence line: its stripped text starts with three backticks. -/
def isFence (line : List Char) : Bool := (fenceKind line).isSome

/-- The fence rule of `fix_fragmented_blocks`: a tagged fence opens a block, any other
fence toggles the state. -/
def fenceStep (inCode : Bool) (line : List Char) : Bool :=
  match fenceKind line with
  | some .tagged => true
  | some _ => !inCode
  | none => inCode

/-- Each line with the fence state on reaching it, under `fenceStep`. -/
def annotate (inCode : Bool) : List (List Char) → List (List Char × Bool)
  | [] => []
  | l :: ls => (l, inCode) :: annotate (fenceStep inCode l) ls

theorem isFence_iff (line : List Char) : isFence line = true ↔ fenceMarker <+: strip line := by
  simp only [isFence, fenceKind]
  split
  · simp only [iff_true, *]
    split
    · rfl
    · split <;> rfl
  · simp_all

@[simp] theorem fenceStep_of_not_isFence {line : List Char} (h : isFence line = false)
    (inCode : Bool) : fenceStep inCode line = inCode := by
  have : fenceKind line = none := by simpa [isFence] using h
  simp [fenceStep, this]

theorem isFence_of_isBlank {l : List Char} (h : isBlank l = true) : isFence l = false := by
  cases hf : isFence l
  · rfl
  · rw [isFence_iff] at hf
    simp only [isBlank, List.isEmpty_iff] at h
    rw [h] at hf
    simp [fenceMarker] at hf

theorem isFence_of_not_mem {l : List Char} (h : '`' ∉ l) : isFence l = false := by
  rw [Bool.eq_false_iff, ne_eq, isFence_iff]
  exact fun hp => h ((List.dropWhile_suffix _).subset
    ((List.rdropWhile_prefix _ _).subset (hp.subset (by decide))))

@[simp] theorem fenceKind_fenceMarker : fenceKind fenceMarker = some .bare := by decide

@[simp] theorem isFence_fenceMarker : isFence fenceMarker = true := by decide

theorem fenceStep_of_bare {line : List Char} (h : fenceKind line = some .bare) (b : Bool) :
    fenceStep b line = !b := by
  simp [fenceStep, h]

/-! ### The two heuristics -/

/-- `s.startswith(prefixes)` for a tuple of prefixes. -/
def startsWithAny (ps : List String) (s : List Char) : Bool := ps.any (·.toList.isPrefixOf s)

/-- `^\s*(return|defer|go)\s`, on the line without its leading whitespace. -/
def startsWithKeyword (body : List Char) : Bool :=
  ["return", "defer", "go"].any fun k =>
    k.toList.isPrefixOf body && (body.drop k.length).head?.any isSpace

/-- `^\s*[a-zA-Z_][a-zA-Z0-9_]*\s*:=`, on the line without its leading whitespace: a Go
short declaration. -/
def startsWithShortDecl : List Char → Bool
  | c :: rest =>
      (c.isAlpha || c == '_') &&
        ":=".toList.isPrefixOf ((rest.dropWhile (fun d => d.isAlphanum || d == '_')).dropWhile isSpace)
  | [] => false

/-- `^\s*select\s*\{`, on the line without its leading whitespace. -/
def startsWithSelect (body : List Char) : Bool :=
  "select".toList.isPrefixOf body && ['{'].isPrefixOf ((body.drop 6).dropWhile isSpace)

/-- `^(\t|    )`: indented by a tab or four spaces. -/
def isIndented (line : List Char) : Bool := startsWithAny ["\t", "    "] line

/-- `is_code_continuation(line, prev_lines)`; `prev_lines` is never read. -/
def isCodeContinuation (line : List Char) : Bool :=
  let stripped := strip line
  let body := line.dropWhile isSpace
  !stripped.isEmpty &&
    (startsWithAny ["//", "/*", "*/"] body || stripped == ['}'] ||
      startsWithKeyword body || startsWithShortDecl body || startsWithSelect body ||
      (isIndented line && !startsWithAny ["-", "*", ">"] stripped))

/-- `^\d+\.\s+\*\*` on the stripped line: a numbered list item in bold. -/
def isNumberedBold (s : List Char) : Bool :=
  match s.dropWhile isDigit with
  | '.' :: rest =>
      !(s.takeWhile isDigit).isEmpty && !(rest.takeWhile isSpace).isEmpty &&
        "**".toList.isPrefixOf (rest.dropWhile isSpace)
  | _ => false

/-- The substrings that mark a long line as code rather than prose: `{}`, `()`, `:=`,
`->`, `{{` and `}}`. -/
def codeIndicators : List String := ["\x7b\x7d", "()", ":=", "->", "\x7b\x7b", "\x7d\x7d"]

/-- `is_markdown_text(line)`. -/
def isMarkdownText (line : List Char) : Bool :=
  let stripped := strip line
  stripped.isEmpty ||
    startsWithAny ["#", ">", "|", "-", "1.", "2.", "3.", "!", "["] stripped ||
    startsWithAny ["**", "__"] stripped ||
    isNumberedBold stripped ||
    (decide (10 < wordCount stripped) &&
      !codeIndicators.any fun c => decide (c.toList <:+: stripped))

theorem isMarkdownText_of_isBlank {line : List Char} (h : isBlank line = true) :
    isMarkdownText line = true := by
  simp only [isBlank] at h
  simp [isMarkdownText, h]

end DocFix.Mdx
