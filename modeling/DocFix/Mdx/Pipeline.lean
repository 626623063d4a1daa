import DocFix.Mdx.Fragments
import DocFix.Mdx.Escape
import DocFix.Mdx.EmptyBlocks
import DocFix.Mdx.Entities

/-!
`fix_markdown_file`: the frontmatter is split off and kept, and the body goes through the
four passes in order. The file is written back only when the content changed. The file is
read in text mode, which turns every `\r\n` and `\r` into `\n` (`readText`); on a POSIX
system the write translates nothing, so a second run reads `readText` of what the first
wrote.
-/

namespace DocFix.Mdx

/-- `s.find(p)`: the index of the first occurrence of `p`. -/
def findSub (p : List Char) : List Char → Option Nat
  | [] => if p = [] then some 0 else none
  | c :: s => if p <+: c :: s then some 0 else (findSub p s).map (· + 1)

/-- `split_frontmatter(content)`: with a leading `---` and a later `\n---`, the
frontmatter runs to the end of that marker. -/
def splitFrontmatter (content : List Char) : List Char × List Char :=
  if "---".toList <+: content then
    match findSub "\n---".toList (content.drop 3) with
    | none => ([], content)
    | some i => (content.take (3 + i + 4), content.drop (3 + i + 4))
  else ([], content)

/-- The content `fix_markdown_file` computes from a file's content, as `f.read()` returns
it. -/
def fixMarkdownContent (content : List Char) : Except DecodeError (List Char) := do
  let (frontmatter, body) := splitFrontmatter content
  let body ← decodeHtmlEntities body
  let body := fixFragmentedBlocks body
  let body := removeEmptyCodeBlocks body
  let body := escapeJsxPatterns body
  pure (frontmatter ++ body)

/-- `fix_markdown_file`: the content written back, when it differs from what was read. Its
errors: `chr` raised, before the file was opened for writing; or the decoded text holds a lone
surrogate, and the write raised after `open(filepath, 'w')` had emptied the file. -/
def fixMarkdownFile (content : List Char) : Except DecodeError (Option (List Char)) := do
  let new ← fixMarkdownContent content
  pure (if new = content then none else some new)

/-- Two non-empty blocks with balanced fences: the written body keeps two of the four
fences, and the two blocks become one holding `x`, `go` and `y`. -/
theorem fixMarkdownContent_joins_adjacent_blocks :
    (lines "```\nx\n```\n```go\ny\n```".toList).countP isFence = 4 ∧
      fixMarkdownContent "```\nx\n```\n```go\ny\n```".toList = .ok "```\nx\ngo\ny\n```".toList ∧
      (lines "```\nx\ngo\ny\n```".toList).countP isFence = 2 :=
  ⟨by decide, rfl, by decide⟩

end DocFix.Mdx
