import DocFix.Text.Basic

/-!
The regex rules of `fix-doc-links.py` (every rule but the three `str.replace` steps, 1, 2
and 16). Each is one of two regex shapes over a Markdown link: `\]\(TARGET\)`, which rewrites the
target, and `\[([^\]]+)\]\(TARGET\)`, which rewrites the whole link from its text. In both,
`TARGET` is the text up to the first `)`. The shapes are `linkTarget` and `textLink`; each
numbered rule is one of them applied to the rule's own pattern and replacement.
-/

namespace DocFix.Links

/-- `\]\(` then a target up to the first `)`, then `\)`: when `f` accepts the target, the
link's new target. -/
def linkTarget (f : List Char → Option (List Char)) (_ : Option Char) : List Char →
    Option (Nat × List Char)
  | ']' :: '(' :: after =>
      let u := after.takeWhile (· != ')')
      match (after.drop u.length).head?, f u with
      | some ')', some v => some (u.length + 3, "](".toList ++ v ++ [')'])
      | _, _ => none
  | _ => none

/-- `\[([^\]]+)\]\(` then a target up to the first `)`, then `\)`: when `f` accepts the
target, the text `repl` makes from the link text. -/
def textLink (f : List Char → Bool) (repl : List Char → List Char) (_ : Option Char) :
    List Char → Option (Nat × List Char)
  | '[' :: rest =>
      let t := rest.takeWhile (· != ']')
      match rest.drop t.length with
      | ']' :: '(' :: after =>
          let u := after.takeWhile (· != ')')
          if t ≠ [] ∧ (after.drop u.length).head? = some ')' ∧ f u = true then
            some (t.length + u.length + 4, repl t)
          else none
      | _ => none
  | _ => none

/-- A target equal to `t`, replaced by `v`. -/
def exactly (t v : List Char) (u : List Char) : Option (List Char) :=
  if u = t then some v else none

/-- A target containing `m` (`[^)]*m[^)]*`), replaced by `v`. -/
def containing (m v : List Char) (u : List Char) : Option (List Char) :=
  if m <:+: u then some v else none

/-- A target `p([^)]+)` (or `p([^)]*)` when `empty`), replaced by `v` and the group. -/
def grouped (empty : Bool) (p v : List Char) (u : List Char) : Option (List Char) :=
  if p <+: u ∧ (empty ∨ p.length < u.length) then some (v ++ u.drop p.length) else none

/-- The link `[text](...)` written as `[text](v)`. -/
def relink (v t : List Char) : List Char := '[' :: t ++ "](".toList ++ v ++ [')']

/-- The GitHub blob and tree URLs the rules link to. -/
def blobUrl : List Char := "https://github.com/lookatitude/beluga-ai/blob/main/".toList

def treeUrl : List Char := "https://github.com/lookatitude/beluga-ai/tree/main/".toList

/-! ### The numbered rules -/

/-- 3. `\]\(/pkg/([^)]+)\)`. -/
def pkgLinks : Pattern := linkTarget (grouped false "/pkg/".toList (blobUrl ++ "pkg/".toList))

/-- 4. `\]\(/examples/([^)]+)\)`. -/
def examplesLinks : Pattern :=
  linkTarget (grouped false "/examples/".toList (blobUrl ++ "examples/".toList))

/-- 5. `\]\(/specs/([^)]+)\)`. -/
def specsLinks : Pattern := linkTarget (grouped false "/specs/".toList (blobUrl ++ "specs/".toList))

/-- 6. Links to `guides/config-providers.md`. -/
def configProviders : Pattern :=
  textLink (fun u => decide ("guides/config-providers.md".toList <:+: u))
    (relink "../guides/implementing-providers.md".toList)

/-- 7. `./event-driven-agents.md`. -/
def eventDriven : Pattern :=
  textLink (· == "./event-driven-agents.md".toList)
    (relink "./09-multi-model-llm-gateway.md".toList)

/-- 7. `./distributed-orchestration.md`. -/
def distributedOrchestration : Pattern :=
  textLink (· == "./distributed-orchestration.md".toList)
    (relink "./07-distributed-workflow-orchestration.md".toList)

/-- 8. `./README.md` links, replaced by their text. -/
def readmeLinks : Pattern := textLink (· == "./README.md".toList) id

/-- 9. `../guides/configuration.md`. -/
def guidesConfiguration : Pattern :=
  textLink (· == "../guides/configuration.md".toList)
    (relink "../guides/implementing-providers.md".toList)

/-- 10. Targets containing `api-docs/packages/voice/s2s.md`. -/
def voiceS2s : Pattern :=
  linkTarget (containing "api-docs/packages/voice/s2s.md".toList
    "../../api-docs/packages/voice/session.md".toList)

/-- The packages of rule 11. -/
def missingApiDocs : List (List Char) :=
  ["messaging".toList, "documentloaders".toList, "safety".toList, "multimodal".toList,
    "textsplitters".toList]

/-- 11. Links to `api-docs/packages/<pkg>.md`, replaced by their text. -/
def missingApiDoc (pkg : List Char) : Pattern :=
  textLink (fun u => decide (("api-docs/packages/".toList ++ pkg ++ ".md".toList) <:+: u)) id

/-- 12. The working-with-tools tutorial. -/
def workingWithTools : Pattern :=
  linkTarget (exactly "../getting-started/tutorials/working-with-tools.md".toList
    "../getting-started/04-working-with-tools.md".toList)

/-- 13. `/docs/providers/embeddings/selection.md`. -/
def embeddingsSelection : Pattern :=
  textLink (· == "/docs/providers/embeddings/selection.md".toList)
    (relink "../guides/rag-multimodal.md".toList)

/-- 14. `\]\(\.\./\.\./\.\./tutorials/([^)]+)\)`. -/
def tutorialsDepth : Pattern :=
  linkTarget (grouped false "../../../tutorials/".toList "../../tutorials/".toList)

/-- 15. `../../../api-docs/packages/server.md`. -/
def serverDepth : Pattern :=
  linkTarget (exactly "../../../api-docs/packages/server.md".toList
    "../../api-docs/packages/server.md".toList)

/-- The documents of rules 17 and 18. -/
def rootDocs : List (List Char) := ["README".toList, "CONTRIBUTING".toList, "CHANGELOG".toList]

/-- 17. `../<doc>.md` to its GitHub URL. -/
def parentDoc (doc : List Char) : Pattern :=
  linkTarget (exactly ("../".toList ++ doc ++ ".md".toList) (blobUrl ++ doc ++ ".md".toList))

/-- 18. `../../<doc>.md` to its GitHub URL. -/
def grandparentDoc (doc : List Char) : Pattern :=
  linkTarget (exactly ("../../".toList ++ doc ++ ".md".toList) (blobUrl ++ doc ++ ".md".toList))

/-- 19. `\]\(\.\./examples/([^)]*)\)`. -/
def examplesTree : Pattern :=
  linkTarget (grouped true "../examples/".toList (treeUrl ++ "examples/".toList))

/-- 20. `\]\(\.\./\.\./examples/([^)]*)\)`. -/
def examplesTreeDepth2 : Pattern :=
  linkTarget (grouped true "../../examples/".toList (treeUrl ++ "examples/".toList))

/-- 21. `\]\(\.\./\.\./pkg/([^)]*)\)`. -/
def pkgTreeDepth2 : Pattern :=
  linkTarget (grouped true "../../pkg/".toList (treeUrl ++ "pkg/".toList))

/-- 22. `\]\(\.\./\.\./\.\./pkg/([^)]*)\)`. -/
def pkgTreeDepth3 : Pattern :=
  linkTarget (grouped true "../../../pkg/".toList (treeUrl ++ "pkg/".toList))

/-- 23. Targets containing `website/docs/api/`. -/
def websiteApi : Pattern :=
  linkTarget (containing "website/docs/api/".toList "./api-reference.md".toList)

/-- 24. `./patterns/`. -/
def patternsDir : Pattern :=
  linkTarget (exactly "./patterns/".toList "./patterns/README.md".toList)

/-- 25. `./guides/`. -/
def guidesDir : Pattern :=
  linkTarget (exactly "./guides/".toList "./guides/llm-providers.md".toList)

/-- 26. `\]\(\./providers/([^)]+)/\)`: the group is the target between `./providers/` and a
final `/`. -/
def providersDir : Pattern :=
  linkTarget fun u =>
    let g := (u.drop "./providers/".length).dropLast
    if "./providers/".toList <+: u ∧ u.getLast? = some '/' ∧ g ≠ [] then
      some (treeUrl ++ "pkg/".toList ++ g)
    else none

/-- 27. `./TEST_ISSUES_SUMMARY.md` links, replaced by their text. -/
def testIssuesSummary : Pattern := textLink (· == "./TEST_ISSUES_SUMMARY.md".toList) id

/-- 28. `\]\(\.\./\.\./integrations/([^)]+)\)`. -/
def integrationsDepth : Pattern :=
  linkTarget (grouped false "../../integrations/".toList "../integrations/".toList)

/-- 29. `../voice-providers.md`. -/
def voiceProviders : Pattern :=
  linkTarget (exactly "../voice-providers.md".toList "../../guides/voice-providers.md".toList)

/-- 30. `\]\([^)]*use-cases/voice-sessions\.md\)`: a target ending in the file name. -/
def voiceSessions : Pattern :=
  linkTarget fun u =>
    if "use-cases/voice-sessions.md".toList <:+ u then
      some "../../use-cases/voice-session-multi-turn-forms.md".toList
    else none

/-- 31. `\]\(\.\./\.\./\.\./examples/([^)]*)\)`. -/
def examplesTreeDepth3 : Pattern :=
  linkTarget (grouped true "../../../examples/".toList (treeUrl ++ "examples/".toList))

/-! ### Where the rules can match -/

/-- Both link shapes match only over a `](`. -/
theorem linkTarget_link {f : List Char → Option (List Char)} (b : Option Char) (u : List Char)
    (h : linkTarget f b u ≠ none) : "](".toList <:+: u := by
  unfold linkTarget at h
  split at h
  · exact ⟨[], _, rfl⟩
  · exact absurd rfl h

theorem textLink_link {f : List Char → Bool} {repl : List Char → List Char} (b : Option Char)
    (u : List Char) (h : textLink f repl b u ≠ none) : "](".toList <:+: u := by
  unfold textLink at h
  split at h
  · rename_i rest
    dsimp only at h
    split at h
    · rename_i after hd
      have hs : ']' :: '(' :: after <:+ rest := hd ▸ List.drop_suffix _ _
      exact List.IsInfix.trans ⟨[], after, rfl⟩ (hs.trans (List.suffix_cons _ _)).isInfix
    · exact absurd rfl h
  · exact absurd rfl h

end DocFix.Links
