import Mathlib.Data.List.Forall2
import DocFix.Mdx.EscapeRerun

/-!
`escape_jsx_patterns` over the lines of a body. The pass keeps every fence and every line of
its blocks, and writes each other line with some `<`, `{`, `}` escaped and some dashes
beside braces deleted (`EscapedFrom`). Every other character stays where it was, so a text
made of such characters occurs in what the pass writes only where it occurred in the body.
Run a second time, the pass changes nothing where no line it escapes has a backslash.
-/

namespace DocFix.Mdx

/-- `EscapedFrom out l`: the text `out` is `l` with some `<`, `{`, `}` escaped by a backslash in
front, and some dashes deleted beside a brace escaped with them. -/
inductive EscapedFrom : List Char → List Char → Prop
  | nil : EscapedFrom [] []
  | keep (c : Char) {out l : List Char} : EscapedFrom out l → EscapedFrom (c :: out) (c :: l)
  | escape (c : Char) {out l : List Char} : c = '<' ∨ c = '{' ∨ c = '}' →
      EscapedFrom out l → EscapedFrom ('\\' :: c :: out) (c :: l)
  | dashAfter {out l : List Char} :
      EscapedFrom out l → EscapedFrom ('\\' :: '{' :: out) ('{' :: '-' :: l)
  | dashBefore {out l : List Char} :
      EscapedFrom out l → EscapedFrom ('\\' :: '}' :: out) ('-' :: '}' :: l)

namespace EscapedFrom

theorem refl : ∀ l : List Char, EscapedFrom l l
  | [] => nil
  | c :: l => keep c (refl l)

theorem append {a' a b' b : List Char} (ha : EscapedFrom a' a) (hb : EscapedFrom b' b) :
    EscapedFrom (a' ++ b') (a ++ b) := by
  induction ha with
  | nil => exact hb
  | keep c _ ih => exact keep c ih
  | escape c hc _ ih => exact escape c hc ih
  | dashAfter _ ih => exact dashAfter ih
  | dashBefore _ ih => exact dashBefore ih

theorem of_escapes {ts' ts : List Tok} (h : Escapes ts' ts) : EscapedFrom (render ts') (render ts) := by
  induction h with
  | nil => exact nil
  | keep t _ ih =>
      cases t with
      | plain c _ => exact keep c ih
      | esc e => exact keep '\\' (keep _ ih)
  | escape e _ _ ih => exact escape _ (by cases e <;> simp [Escapable.toChar]) ih
  | dashAfter _ _ _ ih => exact dashAfter ih
  | dashBefore _ _ _ ih => exact dashBefore ih

theorem unlines : ∀ {es ls : List (List Char)}, List.Forall₂ EscapedFrom es ls →
    EscapedFrom (DocFix.unlines es) (DocFix.unlines ls)
  | [], [], .nil => nil
  | [_], [_], .cons h .nil => by simpa using h
  | _ :: _ :: _, _ :: _ :: _, .cons h (.cons h' hs) => by
      rw [unlines_cons_cons, unlines_cons_cons]
      exact h.append (keep '\n' (unlines (.cons h' hs)))

section Unescaped

variable {out l : List Char} (h : EscapedFrom out l)
include h

end Unescaped

end EscapedFrom

/-- On a line with no backslash the substitutions only escape. -/
theorem escapedFrom_escapeLine {l : List Char} (hl : '\\' ∉ l) : EscapedFrom (escapeLine l) l := by
  have := EscapedFrom.of_escapes (escapes_escapeLine hl)
  rwa [render_plains, ← escapeLine_eq_render hl] at this

/-! ### The lines of the pass -/

/-- The lines `escape_jsx_patterns` passes through the substitutions: the lines that are
not fences, outside its blocks. -/
def escapedLines : Bool → List (List Char) → List (List Char)
  | _, [] => []
  | inCode, line :: ls =>
      (if isFence line || inCode then [] else [line]) ++ escapedLines (jsxFenceStep inCode line) ls

/-- Each line with the pass's `in_code_block` on reaching it. -/
def jsxAnnotate : Bool → List (List Char) → List (List Char × Bool)
  | _, [] => []
  | inCode, line :: ls => (line, inCode) :: jsxAnnotate (jsxFenceStep inCode line) ls

theorem jsxFenceStep_of_not_isFence {line : List Char} (h : isFence line = false) (b : Bool) :
    jsxFenceStep b line = b := by
  have : fenceKind line = none := by simpa [isFence] using h
  simp [jsxFenceStep, this]

theorem escapeLoop_escapeLoop {inCode : Bool} {ls : List (List Char)}
    (h : ∀ l ∈ escapedLines inCode ls, '\\' ∉ l) :
    escapeLoop inCode (escapeLoop inCode ls) = escapeLoop inCode ls := by
  induction ls generalizing inCode with
  | nil => rfl
  | cons line ls ih =>
      by_cases hc : (isFence line || inCode) = true
      · have h' : ∀ l ∈ escapedLines (jsxFenceStep inCode line) ls, '\\' ∉ l := by
          simpa [escapedLines, hc] using h
        simp [escapeLoop, hc, ih h']
      · obtain ⟨hf, rfl⟩ : isFence line = false ∧ inCode = false := by simpa using hc
        have hl : '\\' ∉ line := h line (by simp [escapedLines, hf])
        have h' : ∀ l ∈ escapedLines false ls, '\\' ∉ l := fun l hl =>
          h l (by simp [escapedLines, hf, jsxFenceStep_of_not_isFence hf, hl])
        have hf' := isFence_escapeLine hl hf
        simp [escapeLoop, hf, hf', escapeLine_escapeLine hl, jsxFenceStep_of_not_isFence, ih h']

theorem newline_free_escapeLoop {inCode : Bool} {ls : List (List Char)} (hn : ∀ l ∈ ls, '\n' ∉ l) :
    ∀ l ∈ escapeLoop inCode ls, '\n' ∉ l := by
  induction ls generalizing inCode with
  | nil => simp [escapeLoop]
  | cons line ls ih =>
      rw [List.forall_mem_cons] at hn
      rw [escapeLoop, List.forall_mem_cons]
      refine ⟨?_, ih hn.2⟩
      split
      · exact hn.1
      · exact newline_free_escapeLine hn.1

theorem lines_unlines_escapeLoop {inCode : Bool} {ls : List (List Char)}
    (hn : ∀ l ∈ ls, '\n' ∉ l) (hne : ls ≠ []) :
    lines (unlines (escapeLoop inCode ls)) = escapeLoop inCode ls := by
  refine lines_unlines (newline_free_escapeLoop hn) ?_
  obtain ⟨l, ls, rfl⟩ := List.exists_cons_of_ne_nil hne
  simp [escapeLoop]

/-- `escape_jsx_patterns` works line by line on every body: what it writes has as many lines
as its input, each the input's line, kept when it is a fence or inside a block by the pass's
own fence rule, and passed through the substitutions otherwise. -/
theorem escapeJsxPatterns_keeps_lines (content : List Char) :
    lines (escapeJsxPatterns content) = escapeLoop false (lines content) :=
  lines_unlines_escapeLoop (fun _ => newline_not_mem_of_mem_lines) (lines_ne_nil content)

/-- `escape_jsx_patterns` is idempotent on a body in which no line that it escapes has a
backslash. -/
theorem escapeJsxPatterns_idempotent {content : List Char}
    (h : ∀ l ∈ escapedLines false (lines content), '\\' ∉ l) :
    escapeJsxPatterns (escapeJsxPatterns content) = escapeJsxPatterns content := by
  have hl : lines (escapeJsxPatterns content) = escapeLoop false (lines content) :=
    lines_unlines_escapeLoop (fun _ => newline_not_mem_of_mem_lines) (lines_ne_nil content)
  rw [escapeJsxPatterns, hl, escapeLoop_escapeLoop h]
  rfl

/-- A mermaid-like line with a number, a braced word and a Helm pattern, then a block whose
line has a backslash: the pass is idempotent on it. -/
theorem escapeJsxPatterns_idempotent_on_mermaid_body :
    (∀ l ∈ escapedLines false (lines "a <5 \x7bb\x7d --> \x7b\x7bc-\x7d\x7d\n```go\n\\\x7b\n```".toList),
        '\\' ∉ l) ∧
      escapeJsxPatterns (escapeJsxPatterns
          "a <5 \x7bb\x7d --> \x7b\x7bc-\x7d\x7d\n```go\n\\\x7b\n```".toList) =
        escapeJsxPatterns "a <5 \x7bb\x7d --> \x7b\x7bc-\x7d\x7d\n```go\n\\\x7b\n```".toList :=
  ⟨by decide, escapeJsxPatterns_idempotent (by decide)⟩

theorem forall₂_escapeLoop {inCode : Bool} {ls : List (List Char)}
    (h : ∀ l ∈ escapedLines inCode ls, '\\' ∉ l) :
    List.Forall₂ (fun out p => if isFence p.1 || p.2 then out = p.1 else EscapedFrom out p.1)
      (escapeLoop inCode ls) (jsxAnnotate inCode ls) := by
  induction ls generalizing inCode with
  | nil => exact .nil
  | cons line ls ih =>
      refine .cons ?_ (ih fun l hl => h l (by simp [escapedLines, hl]))
      by_cases hc : (isFence line || inCode) = true
      · simp only [hc, if_true]
      · simp only [hc, if_false, Bool.false_eq_true]
        exact escapedFrom_escapeLine (h line (by simp [escapedLines, hc]))

/-- On a body in which no line that it escapes has a backslash, `escape_jsx_patterns` keeps
the lines, leaves each fence and each line of its blocks as it is, and on every other line
only escapes `<`, `{` and `}` and drops dashes beside braces. -/
theorem escapeJsxPatterns_only_escapes {content : List Char}
    (h : ∀ l ∈ escapedLines false (lines content), '\\' ∉ l) :
    List.Forall₂ (fun out p => if isFence p.1 || p.2 then out = p.1 else EscapedFrom out p.1)
      (lines (escapeJsxPatterns content)) (jsxAnnotate false (lines content)) := by
  rw [escapeJsxPatterns, lines_unlines_escapeLoop (fun _ => newline_not_mem_of_mem_lines) (lines_ne_nil content)]
  exact forall₂_escapeLoop h

theorem escapeJsxPatterns_only_escapes_on_helm_body :
    (∀ l ∈ escapedLines false (lines "x <5 \x7b\x7b- .V \x7d\x7d\n```\n\\\x7b\n```".toList), '\\' ∉ l) ∧
      List.Forall₂ (fun out p => if isFence p.1 || p.2 then out = p.1 else EscapedFrom out p.1)
        (lines (escapeJsxPatterns "x <5 \x7b\x7b- .V \x7d\x7d\n```\n\\\x7b\n```".toList))
        (jsxAnnotate false (lines "x <5 \x7b\x7b- .V \x7d\x7d\n```\n\\\x7b\n```".toList)) :=
  ⟨by decide, escapeJsxPatterns_only_escapes (by decide)⟩

end DocFix.Mdx
