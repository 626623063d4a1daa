import DocFix.Links.Rules

/-!
`fix_file`: the numbered rules applied in order to a file's content, each one that fires
counted in `local_changes`, and the file written back when its content changed. Two rules
read the file's place under `docs/`: rule 16 its depth and path, rule 30 its path.
-/

namespace DocFix.Links

/-- `if old in content: content = content.replace(old, new); local_changes += 1`. -/
def replaceRule (old new : List Char) (st : List Char × Nat) : List Char × Nat :=
  if old <:+: st.1 then (replace old new st.1, st.2 + 1) else st

/-- `if re.search(p, content): content = re.sub(p, r, content); local_changes += 1`. -/
def applyRule (m : Pattern) (st : List Char × Nat) : List Char × Nat :=
  if search m none st.1 then (sub m st.1, st.2 + 1) else st

/-- 16. In a file at depth 3 whose path names `integrations`, `../../api-docs` gains a
`../`, unless the content already has `../../../api-docs`. -/
def apiDocsDepth (depth : Nat) (path : List Char) (st : List Char × Nat) : List Char × Nat :=
  if 2 ≤ depth ∧ "integrations".toList <:+: path ∧ depth = 3 ∧
      ¬ "../../../api-docs".toList <:+: st.1 then
    replaceRule "../../api-docs".toList "../../../api-docs".toList st
  else st

/-- 30. In a file whose path names `examples`, links to `use-cases/voice-sessions.md`. The
rule's first search, for `../../guides/`, has an empty body and is left out. -/
def voiceSessionsRule (path : List Char) (st : List Char × Nat) : List Char × Nat :=
  if "examples".toList <:+: path ∧ "voice-sessions.md".toList <:+: st.1 then
    applyRule voiceSessions
      (replace "use-cases/voice-sessions.md".toList "use-cases/voice-sessions.md".toList st.1,
        st.2)
  else st

/-- The rules in the order `fix_file` applies them, for a file at `depth` with path `path`
under `docs/`. -/
def fixRules (depth : Nat) (path : List Char) : List (List Char × Nat → List Char × Nat) :=
  [replaceRule "/api/packages/".toList "/api-docs/packages/".toList,
    replaceRule "use-cases/batch-processing.md".toList "use-cases/11-batch-processing.md".toList,
    applyRule pkgLinks, applyRule examplesLinks, applyRule specsLinks,
    applyRule configProviders, applyRule eventDriven, applyRule distributedOrchestration,
    applyRule readmeLinks, applyRule guidesConfiguration, applyRule voiceS2s] ++
  missingApiDocs.map (fun pkg => applyRule (missingApiDoc pkg)) ++
  [applyRule workingWithTools, applyRule embeddingsSelection, applyRule tutorialsDepth,
    applyRule serverDepth, apiDocsDepth depth path] ++
  rootDocs.map (fun doc => applyRule (parentDoc doc)) ++
  rootDocs.map (fun doc => applyRule (grandparentDoc doc)) ++
  [applyRule examplesTree, applyRule examplesTreeDepth2, applyRule pkgTreeDepth2,
    applyRule pkgTreeDepth3, applyRule websiteApi, applyRule patternsDir, applyRule guidesDir,
    applyRule providersDir, applyRule testIssuesSummary, applyRule integrationsDepth,
    applyRule voiceProviders, voiceSessionsRule path, applyRule examplesTreeDepth3]

/-- The steps `rs` run in order from `st`. -/
def runRules (rs : List (List Char × Nat → List Char × Nat)) (st : List Char × Nat) :
    List Char × Nat :=
  rs.foldl (fun st r => r st) st

/-- The new content and `local_changes` for a file whose path under `docs/` has the parts
`relPath`: its depth is `len(rel_path.parts) - 1`, and `str(rel_path)` joins the parts. -/
def fixFileContent (relPath : List (List Char)) (content : List Char) : List Char × Nat :=
  runRules (fixRules (relPath.length - 1) (['/'].intercalate relPath)) (content, 0)

/-- `fix_file`: the content written back, if any, and the count returned. A file that cannot
be read (`none`) is skipped and counts `0`. -/
def fixFile (relPath : List (List Char)) : Option (List Char) → Option (List Char) × Nat
  | none => (none, 0)
  | some content =>
      let r := fixFileContent relPath content
      if r.1 ≠ content then (some r.1, r.2) else (none, 0)

/-! ### Counting -/

/-- A step of `fix_file` either leaves content and count alone or adds one to the count. -/
def Counted (r : List Char × Nat → List Char × Nat) : Prop :=
  ∀ st, r st = st ∨ (r st).2 = st.2 + 1

theorem replaceRule_counted (old new : List Char) : Counted (replaceRule old new) := by
  intro st
  unfold replaceRule
  split <;> simp

theorem applyRule_counted (m : Pattern) : Counted (applyRule m) := by
  intro st
  unfold applyRule
  split <;> simp

theorem apiDocsDepth_counted (depth : Nat) (path : List Char) :
    Counted (apiDocsDepth depth path) := by
  intro st
  unfold apiDocsDepth
  split
  · exact replaceRule_counted _ _ st
  · exact .inl rfl

theorem voiceSessionsRule_counted (path : List Char) : Counted (voiceSessionsRule path) := by
  intro st
  unfold voiceSessionsRule
  split
  · rcases applyRule_counted voiceSessions (replace _ _ st.1, st.2) with h | h
    · left
      rw [h, replace_self (by decide)]
    · exact .inr h
  · exact .inl rfl

theorem fixRules_counted (depth : Nat) (path : List Char) :
    ∀ r ∈ fixRules depth path, Counted r := by
  simp only [fixRules, List.mem_append, List.mem_cons, List.mem_map, List.not_mem_nil]
  rintro r ((((((h | h) | ⟨_, _, rfl⟩) | h) | ⟨_, _, rfl⟩) | ⟨_, _, rfl⟩) | h) <;>
    first
      | exact applyRule_counted _
      | (repeat' rcases h with rfl | h) <;>
          first
            | exact applyRule_counted _
            | exact replaceRule_counted _ _
            | exact apiDocsDepth_counted _ _
            | exact voiceSessionsRule_counted _

theorem fixRules_length (depth : Nat) (path : List Char) : (fixRules depth path).length = 40 :=
  rfl

@[simp] theorem runRules_nil (st : List Char × Nat) : runRules [] st = st := rfl

@[simp] theorem runRules_cons (r : List Char × Nat → List Char × Nat) (rs) (st : List Char × Nat) :
    runRules (r :: rs) st = runRules rs (r st) := rfl

/-- Over a list of counted steps, the count grows by at most one a step, and it grows
whenever the content changes. -/
theorem runRules_counted {rs : List (List Char × Nat → List Char × Nat)}
    (h : ∀ r ∈ rs, Counted r) (st : List Char × Nat) :
    st.2 ≤ (runRules rs st).2 ∧ (runRules rs st).2 ≤ st.2 + rs.length ∧
      ((runRules rs st).1 ≠ st.1 → st.2 < (runRules rs st).2) := by
  induction rs generalizing st with
  | nil => simp
  | cons r rs ih =>
      simp only [List.forall_mem_cons] at h
      obtain ⟨h1, h2, h3⟩ := ih h.2 (r st)
      simp only [runRules_cons, List.length_cons]
      rcases h.1 st with hr | hr
      · rw [hr] at h1 h2 h3 ⊢
        exact ⟨h1, by omega, h3⟩
      · exact ⟨by omega, by omega, fun _ => by omega⟩

/-- What `fix_file` returns for a file it writes: at least one rule fired, and at most the
forty rule applications. -/
theorem fixFile_cases (relPath : List (List Char)) (read : Option (List Char)) :
    fixFile relPath read = (none, 0) ∨
      ∃ new n, fixFile relPath read = (some new, n) ∧ 0 < n ∧ n ≤ 40 := by
  cases read with
  | none => exact .inl rfl
  | some content =>
      obtain ⟨-, hle, hch⟩ := runRules_counted (fixRules_counted (relPath.length - 1)
        (['/'].intercalate relPath)) (content, 0)
      rw [fixRules_length] at hle
      simp only [fixFile, fixFileContent]
      split
      · exact .inr ⟨_, _, rfl, by simpa using hch ‹_›, by simpa using hle⟩
      · exact .inl rfl

/-- `fix_file` returns a positive count exactly when it writes the file, and never more than
one for each of the forty rule applications. -/
theorem fixFile_count (relPath : List (List Char)) (read : Option (List Char)) :
    (fixFile relPath read).2 ≤ 40 ∧ ((fixFile relPath read).1.isSome ↔ 0 < (fixFile relPath read).2) := by
  rcases fixFile_cases relPath read with h | ⟨new, n, h, hn, hn'⟩ <;> simp [h, *]

/-! ### Rules 15 and 16 -/

/-- Rule 16's guard works when the rule runs alone: the `../../../api-docs` it writes keeps
it from firing again, so applying it twice is applying it once. -/
theorem apiDocsDepth_apiDocsDepth (depth : Nat) (path : List Char) (st : List Char × Nat) :
    apiDocsDepth depth path (apiDocsDepth depth path st) = apiDocsDepth depth path st := by
  unfold apiDocsDepth
  by_cases hc : 2 ≤ depth ∧ "integrations".toList <:+: path ∧ depth = 3 ∧
      ¬ "../../../api-docs".toList <:+: st.1
  · rw [if_pos hc]
    by_cases ho : "../../api-docs".toList <:+: st.1
    · have hr : replaceRule "../../api-docs".toList "../../../api-docs".toList st =
          (replace "../../api-docs".toList "../../../api-docs".toList st.1, st.2 + 1) := if_pos ho
      rw [hr, if_neg]
      rintro ⟨-, -, -, h⟩
      exact h (infix_replace (by decide) ho)
    · have hr : replaceRule "../../api-docs".toList "../../../api-docs".toList st = st := if_neg ho
      rw [hr, if_pos hc, hr]
  · rw [if_neg hc, if_neg hc]

set_option maxRecDepth 20000 in
/-- In `integrations/a/b/f.md` (depth 3), rule 15 moves the `server.md` link up to
`../../api-docs` and rule 16 moves every `../../api-docs` link back down, but only while no
link has `../../../api-docs`. The first run leaves both links at `../../../api-docs`; on the
second, rule 15 moves the `server.md` link again and rule 16, seeing the other link, no
longer moves it back, so the second run rewrites the file. -/
theorem fixFile_rewrites_server_link_again :
    fixFile ["integrations".toList, "a".toList, "b".toList, "f.md".toList]
        (some "[x](../../api-docs/a.md) [y](../../../api-docs/packages/server.md)".toList) =
      (some "[x](../../../api-docs/a.md) [y](../../../api-docs/packages/server.md)".toList, 2) ∧
    fixFile ["integrations".toList, "a".toList, "b".toList, "f.md".toList]
        (some "[x](../../../api-docs/a.md) [y](../../../api-docs/packages/server.md)".toList) =
      (some "[x](../../../api-docs/a.md) [y](../../api-docs/packages/server.md)".toList, 1) := by
  decide

/-! ### Files without links -/

theorem runRules_of_forall {rs : List (List Char × Nat → List Char × Nat)} {st : List Char × Nat}
    (h : ∀ r ∈ rs, r st = st) : runRules rs st = st := by
  induction rs with
  | nil => rfl
  | cons r rs ih =>
      rw [List.forall_mem_cons] at h
      rw [runRules_cons, h.1, ih h.2]

section NoLinks

variable {content : List Char} (hl : ¬ "](".toList <:+: content)
include hl

theorem applyRule_of_no_link {m : Pattern} (hm : ∀ b u, m b u ≠ none → "](".toList <:+: u)
    (n : Nat) : applyRule m (content, n) = (content, n) :=
  if_neg (by simp [search_eq_false_of_absent hm hl])

/-- Every rule leaves alone a content with no `](` and none of the texts the three
`str.replace` rules look for. -/
theorem fixRules_of_no_link (h1 : ¬ "/api/packages/".toList <:+: content)
    (h2 : ¬ "use-cases/batch-processing.md".toList <:+: content)
    (h16 : ¬ "../../api-docs".toList <:+: content) (depth : Nat) (path : List Char) (n : Nat) :
    ∀ r ∈ fixRules depth path, r (content, n) = (content, n) := by
  have hr : ∀ {old new : List Char}, ¬ old <:+: content →
      replaceRule old new (content, n) = (content, n) := fun h => if_neg h
  have hv : voiceSessionsRule path (content, n) = (content, n) := by
    unfold voiceSessionsRule
    split
    · rw [replace_self (by decide)]
      exact applyRule_of_no_link hl linkTarget_link n
    · rfl
  have ha : apiDocsDepth depth path (content, n) = (content, n) := by
    unfold apiDocsDepth
    split
    · exact hr h16
    · rfl
  simp only [fixRules, List.mem_append, List.mem_cons, List.mem_map, List.not_mem_nil]
  rintro r ((((((h | h) | ⟨_, _, rfl⟩) | h) | ⟨_, _, rfl⟩) | ⟨_, _, rfl⟩) | h) <;>
    first
      | exact applyRule_of_no_link hl linkTarget_link n
      | exact applyRule_of_no_link hl textLink_link n
      | (repeat' rcases h with rfl | h) <;>
          first
            | exact applyRule_of_no_link hl linkTarget_link n
            | exact applyRule_of_no_link hl textLink_link n
            | exact hr h1
            | exact hr h2
            | exact ha
            | exact hv

/-- `fix_file` leaves alone a file with no Markdown link (no `](`) and none of the texts
`/api/packages/`, `use-cases/batch-processing.md` and `../../api-docs`: it writes nothing
and returns 0, wherever the file is under `docs/`. -/
theorem fixFile_of_no_link (h1 : ¬ "/api/packages/".toList <:+: content)
    (h2 : ¬ "use-cases/batch-processing.md".toList <:+: content)
    (h16 : ¬ "../../api-docs".toList <:+: content) (relPath : List (List Char)) :
    fixFile relPath (some content) = (none, 0) := by
  have h := runRules_of_forall (fixRules_of_no_link hl h1 h2 h16 (relPath.length - 1)
    (['/'].intercalate relPath) 0)
  simp [fixFile, fixFileContent, h]

end NoLinks

/-- A bracketed word followed by a parenthesis after a space is no link. -/
theorem fixFile_of_no_link_on_spaced_brackets :
    ¬ "](".toList <:+: "[see] (../api-docs)".toList ∧
      ¬ "/api/packages/".toList <:+: "[see] (../api-docs)".toList ∧
      ¬ "use-cases/batch-processing.md".toList <:+: "[see] (../api-docs)".toList ∧
      ¬ "../../api-docs".toList <:+: "[see] (../api-docs)".toList ∧
      fixFile ["integrations".toList, "a".toList, "b".toList, "f.md".toList]
        (some "[see] (../api-docs)".toList) = (none, 0) :=
  ⟨by decide, by decide, by decide, by decide,
    fixFile_of_no_link (by decide) (by decide) (by decide) (by decide) _⟩

end DocFix.Links
