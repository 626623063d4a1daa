import DocFix.Links.FixFile

/-!
The rules of `fix-doc-links.py` that rewrite a link's target and nothing else. Cutting every
target out of a text, what stands between each `](` and the next `)`, is a left-to-right
transducer (`stripTargets`), and a substitution keeps a transducer's output when each match
and its replacement do. The matches of the `\]\(TARGET\)` rules, and of the rules that
write a link `[text](...)` anew from its text, differ from their replacements only in a
target, and no replacement holds a `)`: thirty of the forty steps of `fix_file` keep the text
outside link targets as it was.
-/

namespace DocFix.Links

/-- Where the scan of `stripTargets` stands: in plain text, just after a `]`, or inside a
link target. -/
inductive LinkMode
  | text
  | bracket
  | target
  deriving DecidableEq, Repr

/-- One character of `stripTargets`: a `](` opens a target, whose characters are dropped up
to the `)` that closes it. -/
def stripStep : LinkMode → Char → LinkMode × List Char
  | .text, c => (if c = ']' then .bracket else .text, [c])
  | .bracket, c => (if c = '(' then .target else if c = ']' then .bracket else .text, [c])
  | .target, c => if c = ')' then (.text, [')']) else (.target, [])

/-- The text with every link target cut out: each `](` keeps its `)` but loses what stands
between them. -/
def stripTargets (s : List Char) : List Char := transduce stripStep .text s

example : stripTargets "see [a](b.md) and [c](d)".toList = "see [a]() and [c]()".toList := by
  decide

theorem target_of_not_mem {u : List Char} (hu : ')' ∉ u) :
    transduce stripStep .target u = [] ∧ endState stripStep .target u = .target := by
  induction u with
  | nil => exact ⟨rfl, rfl⟩
  | cons c u ih =>
    rw [List.mem_cons, not_or] at hu
    have hc : stripStep .target c = (.target, []) := if_neg (Ne.symm hu.1)
    simp only [transduce, endState, List.foldl, hc, List.nil_append]
    exact ih hu.2

/-- From any state, a `](`, a target with no `)` and its `)` give the same output and leave
the scan in plain text, whatever the target. -/
theorem transduce_link {u : List Char} (hu : ')' ∉ u) (q : LinkMode) :
    transduce stripStep q ("](".toList ++ u ++ [')']) =
        transduce stripStep q "](".toList ++ [')'] ∧
      endState stripStep q ("](".toList ++ u ++ [')']) = .text := by
  have hq : endState stripStep q "](".toList = .target := by cases q <;> rfl
  have ⟨ht, he⟩ := target_of_not_mem hu
  simp only [transduce_append, endState_append, hq, ht, he, List.append_nil]
  exact ⟨rfl, rfl⟩

/-- A pattern that rewrites link targets only: each match is a text `p`, a `](`, a target
`u` and its `)`, and is replaced by `p`, `](`, a new target `v` and `)`, neither target
holding a `)`. -/
def RewritesTargets (m : Pattern) : Prop :=
  ∀ b s k r, m b s = some (k, r) → ∃ p u v y, s = p ++ "](".toList ++ u ++ ')' :: y ∧
    k = (p ++ "](".toList ++ u ++ [')']).length ∧ r = p ++ "](".toList ++ v ++ [')'] ∧
    ')' ∉ u ∧ ')' ∉ v

/-- A substitution that rewrites link targets only changes nothing outside them. -/
theorem stripTargets_sub {m : Pattern} (hm : RewritesTargets m) (s : List Char) :
    stripTargets (sub m s) = stripTargets s := by
  refine transduce_reSub (fun b s k r h => ?_) _ _ s
  obtain ⟨p, u, v, y, rfl, rfl, rfl, hu, hv⟩ := hm b s k r h
  refine ⟨p ++ "](".toList ++ u ++ [')'], y, by simp, rfl, by simp, fun q => ?_⟩
  have hu := transduce_link hu (endState stripStep q p)
  have hv := transduce_link hv (endState stripStep q p)
  simp only [List.append_assoc] at hu hv ⊢
  simp only [transduce_append stripStep q p, endState_append stripStep q p, hu, hv, and_self]

theorem applyRule_keeps {m : Pattern} (hm : RewritesTargets m) (s : List Char) (n : Nat) :
    stripTargets (applyRule m (s, n)).1 = stripTargets s := by
  unfold applyRule
  split
  · exact stripTargets_sub hm s
  · rfl

/-! ### The two link shapes -/

theorem eq_takeWhile_append (c : Char) (s : List Char) :
    s = s.takeWhile (· != c) ++ s.drop (s.takeWhile (· != c)).length := by
  conv_lhs => rw [← List.take_append_drop (s.takeWhile (· != c)).length s]
  rw [← List.prefix_iff_eq_take.1 (List.takeWhile_prefix _)]

theorem not_mem_takeWhile (c : Char) (s : List Char) : c ∉ s.takeWhile (· != c) :=
  fun h => by simpa using List.mem_takeWhile_imp h

theorem linkTarget_eq_some {f : List Char → Option (List Char)} {b : Option Char}
    {s r : List Char} {k : Nat} (h : linkTarget f b s = some (k, r)) :
    ∃ t v rest, s = ']' :: '(' :: (t ++ ')' :: rest) ∧ ')' ∉ t ∧ f t = some v ∧
      k = t.length + 3 ∧ r = "](".toList ++ v ++ [')'] := by
  unfold linkTarget at h
  split at h
  · rename_i after
    dsimp only at h
    split at h
    · rename_i v hd hv
      obtain ⟨rfl, rfl⟩ := Prod.mk.inj (Option.some.inj h)
      obtain ⟨rest, hr⟩ := List.head?_eq_some_iff.1 hd
      refine ⟨_, v, rest, ?_, not_mem_takeWhile _ _, hv, rfl, rfl⟩
      rw [← hr, ← eq_takeWhile_append]
    · cases h
  · cases h

theorem textLink_eq_some {f : List Char → Bool} {repl : List Char → List Char}
    {b : Option Char} {s r : List Char} {k : Nat} (h : textLink f repl b s = some (k, r)) :
    ∃ t u rest, s = '[' :: (t ++ ']' :: '(' :: (u ++ ')' :: rest)) ∧ ')' ∉ u ∧
      k = t.length + u.length + 4 ∧ r = repl t := by
  unfold textLink at h
  split at h
  · rename_i rest
    dsimp only at h
    split at h
    · rename_i after hd
      split at h
      · rename_i hc
        obtain ⟨rfl, rfl⟩ := Prod.mk.inj (Option.some.inj h)
        obtain ⟨y, hy⟩ := List.head?_eq_some_iff.1 hc.2.1
        refine ⟨_, _, y, ?_, not_mem_takeWhile _ _, rfl, rfl⟩
        rw [← hy, ← eq_takeWhile_append, ← hd, ← eq_takeWhile_append]
      · cases h
    · cases h
  · cases h

/-- A target rule's replacement of a target with no `)` has no `)` either. -/
def TargetClosed (f : List Char → Option (List Char)) : Prop :=
  ∀ u v, ')' ∉ u → f u = some v → ')' ∉ v

theorem linkTarget_rewritesTargets {f : List Char → Option (List Char)} (hf : TargetClosed f) :
    RewritesTargets (linkTarget f) := fun _ _ _ _ h => by
  obtain ⟨t, v, rest, rfl, ht, hv, rfl, rfl⟩ := linkTarget_eq_some h
  exact ⟨[], t, v, rest, rfl, by simp, rfl, ht, hf t v ht hv⟩

/-- A link rewritten from its text keeps the text when it is written `[text](v)`. -/
theorem textLink_rewritesTargets {f : List Char → Bool} {v : List Char} (hv : ')' ∉ v) :
    RewritesTargets (textLink f (relink v)) := fun _ _ _ _ h => by
  obtain ⟨t, u, rest, rfl, hu, rfl, rfl⟩ := textLink_eq_some h
  exact ⟨'[' :: t, u, v, rest, by simp, by simp; omega, rfl, hu, hv⟩

/-! ### The rules of `fix_file` that rewrite link targets -/

theorem exactly_closed {t v : List Char} (h : ')' ∉ v) : TargetClosed (exactly t v) :=
  fun _ _ _ he => by
    unfold exactly at he
    split at he <;> cases he
    exact h

theorem containing_closed {m v : List Char} (h : ')' ∉ v) : TargetClosed (containing m v) :=
  fun _ _ _ he => by
    unfold containing at he
    split at he <;> cases he
    exact h

theorem grouped_closed {e : Bool} {p v : List Char} (h : ')' ∉ v) :
    TargetClosed (grouped e p v) :=
  fun u _ hu he => by
    unfold grouped at he
    split at he <;> cases he
    simpa [h] using fun hd => hu (List.mem_of_mem_drop hd)

theorem providersDir_rewritesTargets : RewritesTargets providersDir :=
  linkTarget_rewritesTargets fun u _ hu he => by
    dsimp only at he
    split at he <;> cases he
    simp only [List.mem_append, not_or]
    exact ⟨by decide, fun hd => hu (List.mem_of_mem_drop (List.mem_of_mem_dropLast hd))⟩

theorem voiceSessions_rewritesTargets : RewritesTargets voiceSessions :=
  linkTarget_rewritesTargets fun _ _ _ he => by
    split at he <;> cases he
    decide

/-- The steps of `fix_file` that rewrite link targets only, in the order it applies them:
the rules of the shape `\]\(TARGET\)`, the rules that write a link `[text](...)` anew from
its text, and rule 30, which applies one of the first kind under its guard. -/
def targetSteps (path : List Char) : List (List Char × Nat → List Char × Nat) :=
  [applyRule pkgLinks, applyRule examplesLinks, applyRule specsLinks, applyRule configProviders,
    applyRule eventDriven, applyRule distributedOrchestration, applyRule guidesConfiguration,
    applyRule voiceS2s, applyRule workingWithTools, applyRule embeddingsSelection,
    applyRule tutorialsDepth, applyRule serverDepth] ++
  rootDocs.map (fun doc => applyRule (parentDoc doc)) ++
  rootDocs.map (fun doc => applyRule (grandparentDoc doc)) ++
  [applyRule examplesTree, applyRule examplesTreeDepth2, applyRule pkgTreeDepth2,
    applyRule pkgTreeDepth3, applyRule websiteApi, applyRule patternsDir, applyRule guidesDir,
    applyRule providersDir, applyRule integrationsDepth, applyRule voiceProviders,
    voiceSessionsRule path, applyRule examplesTreeDepth3]

theorem targetSteps_sublist (depth : Nat) (path : List Char) :
    List.Sublist (targetSteps path) (fixRules depth path) := by
  simp only [targetSteps, fixRules, rootDocs, missingApiDocs, List.map, List.cons_append,
    List.nil_append]
  repeat
    first
      | exact List.Sublist.slnil
      | with_reducible apply List.Sublist.cons₂
      | apply List.Sublist.cons

theorem voiceSessionsRule_keeps (path s : List Char) (n : Nat) :
    stripTargets (voiceSessionsRule path (s, n)).1 = stripTargets s := by
  unfold voiceSessionsRule
  split
  · rw [replace_self (by decide)]
    exact applyRule_keeps voiceSessions_rewritesTargets s n
  · rfl

theorem targetSteps_keep (path : List Char) :
    ∀ r ∈ targetSteps path, ∀ s n, stripTargets (r (s, n)).1 = stripTargets s := by
  simp only [targetSteps, rootDocs, List.map, List.mem_append, List.mem_cons,
    List.not_mem_nil]
  rintro r (((h | h) | h) | h) <;> (repeat' rcases h with rfl | h) <;> first
    | exact applyRule_keeps (linkTarget_rewritesTargets (exactly_closed (by decide)))
    | exact applyRule_keeps (linkTarget_rewritesTargets (containing_closed (by decide)))
    | exact applyRule_keeps (linkTarget_rewritesTargets (grouped_closed (by decide)))
    | exact applyRule_keeps (textLink_rewritesTargets (by decide))
    | exact applyRule_keeps providersDir_rewritesTargets
    | exact voiceSessionsRule_keeps path

/-- The target steps of `fix_file`, taken in its order from its forty steps, change nothing
but link targets: each leaves the text outside the targets as it was. -/
theorem fixRules_keep_text (depth : Nat) (path : List Char) :
    List.Sublist (targetSteps path) (fixRules depth path) ∧
      ∀ r ∈ targetSteps path, ∀ s n, stripTargets (r (s, n)).1 = stripTargets s :=
  ⟨targetSteps_sublist depth path, targetSteps_keep path⟩

end DocFix.Links
