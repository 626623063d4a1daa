import Mathlib.Data.List.Infix
import Mathlib.Data.List.DropRight
import DocFix.Text.Unicode

/-!
Python's `str` operations as the two maintenance scripts use them, over `List Char`, with
the character classes of `DocFix.Text.Unicode`. A regex substitution is `reSub` over a
matcher that tries the pattern at one position; lookbehinds read the original text, as
`re.sub` does.
-/

namespace DocFix

/-- `str.strip()`. -/
def strip (s : List Char) : List Char := (s.dropWhile isSpace).rdropWhile isSpace

/-- `not line.strip()`: the line holds only whitespace. -/
def isBlank (s : List Char) : Bool := (strip s).isEmpty

theorem prefix_rdropWhile {f : Char → Bool} {p : List Char} (hp : ∀ c ∈ p, f c = false) :
    ∀ {s : List Char}, p <+: s → p <+: s.rdropWhile f := by
  intro s
  induction s using List.reverseRecOn with
  | nil => exact id
  | append_singleton s x ih =>
      intro h
      by_cases hx : f x = true
      · rw [List.rdropWhile_concat_pos _ _ _ hx]
        rcases List.prefix_concat_iff.1 h with rfl | h
        · exact absurd hx (by simp [hp x (by simp)])
        · exact ih h
      · rwa [List.rdropWhile_concat_neg _ _ _ hx]

theorem prefix_strip_iff {p s : List Char} (hp : ∀ c ∈ p, isSpace c = false) :
    p <+: strip s ↔ p <+: s.dropWhile isSpace :=
  ⟨fun h => h.trans (List.rdropWhile_prefix _ _), prefix_rdropWhile hp⟩

/-- `len(s.split())`: the number of whitespace-separated words. -/
def wordCount (s : List Char) : Nat := ((s.splitOnP isSpace).filter (!·.isEmpty)).length

/-- `content.split('\n')`. -/
def lines (s : List Char) : List (List Char) := s.splitOn '\n'

/-- `'\n'.join(lines)`. -/
def unlines (ls : List (List Char)) : List Char := ['\n'].intercalate ls

theorem unlines_lines (s : List Char) : unlines (lines s) = s :=
  List.intercalate_splitOn s '\n'

theorem lines_unlines {ls : List (List Char)} (h : ∀ l ∈ ls, '\n' ∉ l) (hne : ls ≠ []) :
    lines (unlines ls) = ls :=
  List.splitOn_intercalate ls '\n' h hne

theorem lines_ne_nil (s : List Char) : lines s ≠ [] := List.splitOnP_ne_nil _ _

private theorem splitOnP_go_mem (p : Char → Bool) :
    ∀ (xs acc : List Char), ∀ l ∈ List.splitOnP.go p xs acc, ∀ a ∈ l,
      p a = false ∧ (a ∈ xs ∨ a ∈ acc) ∨ (∃ b ∈ acc, p b = true)
  | [], acc, l, hl => by
      simp only [List.splitOnP.go, List.mem_singleton] at hl
      subst hl
      intro a ha
      by_cases hp : ∃ b ∈ acc, p b = true
      · exact .inr hp
      · exact .inl ⟨by simpa using fun h => hp ⟨a, by simpa using ha, h⟩, .inr (by simpa using ha)⟩
  | x :: xs, acc, l, hl => by
      simp only [List.splitOnP.go] at hl
      split at hl
      · rcases List.mem_cons.1 hl with rfl | hl
        · intro a ha
          by_cases hp : ∃ b ∈ acc, p b = true
          · exact .inr hp
          · exact .inl ⟨by simpa using fun h => hp ⟨a, by simpa using ha, h⟩, .inr (by simpa using ha)⟩
        · intro a ha
          rcases splitOnP_go_mem p xs [] l hl a ha with ⟨h1, h2 | h2⟩ | ⟨b, hb, -⟩
          · exact .inl ⟨h1, .inl (List.mem_cons_of_mem _ h2)⟩
          · simp at h2
          · simp at hb
      · intro a ha
        rcases splitOnP_go_mem p xs (x :: acc) l hl a ha with ⟨h1, h2 | h2⟩ | ⟨b, hb, hpb⟩
        · exact .inl ⟨h1, .inl (List.mem_cons_of_mem _ h2)⟩
        · rcases List.mem_cons.1 h2 with rfl | h2
          · exact .inl ⟨h1, .inl (List.mem_cons_self _ _)⟩
          · exact .inl ⟨h1, .inr h2⟩
        · rcases List.mem_cons.1 hb with rfl | hb
          · simp_all
          · exact .inr ⟨b, hb, hpb⟩

theorem mem_lines {s l : List Char} (h : l ∈ lines s) {a : Char} (ha : a ∈ l) :
    a ≠ '\n' ∧ a ∈ s := by
  rcases splitOnP_go_mem (· == '\n') s [] l h a ha with ⟨h1, h2 | h2⟩ | ⟨b, hb, -⟩
  · exact ⟨by simpa using h1, h2⟩
  · simp at h2
  · simp at hb

theorem newline_not_mem_of_mem_lines {s l : List Char} (h : l ∈ lines s) : '\n' ∉ l :=
  fun hn => (mem_lines h hn).1 rfl

theorem unlines_cons_cons (a b : List Char) (ls : List (List Char)) :
    unlines (a :: b :: ls) = a ++ '\n' :: unlines (b :: ls) := rfl

@[simp] theorem unlines_nil : unlines [] = [] := rfl

@[simp] theorem unlines_singleton (a : List Char) : unlines [a] = a := by
  simp [unlines, List.intercalate]

theorem prefix_of_prefix_append_cons {x : Char} {r : List Char} :
    ∀ {p a : List Char}, p <+: a ++ x :: r → x ∉ p → p <+: a
  | [], _, _, _ => List.nil_prefix
  | y :: p, [], h, hx => by
      obtain ⟨rfl, -⟩ := List.cons_prefix_cons.1 h
      exact absurd (List.mem_cons_self _ _) hx
  | y :: p, c :: a, h, hx => by
      rw [List.cons_append, List.cons_prefix_cons] at h
      exact List.cons_prefix_cons.2 ⟨h.1, prefix_of_prefix_append_cons h.2 fun e =>
        hx (List.mem_cons_of_mem _ e)⟩

theorem infix_append_iff_of_head {x : Char} {q : List Char} :
    ∀ {a t : List Char}, x ∉ a → (x :: q <:+: a ++ t ↔ x :: q <:+: t)
  | [], _, _ => Iff.rfl
  | c :: a, t, hx => by
      rw [List.cons_append, List.infix_cons_iff, infix_append_iff_of_head fun e =>
        hx (List.mem_cons_of_mem _ e)]
      refine ⟨fun h => h.elim (fun h => absurd (List.cons_prefix_cons.1 h).1 ?_) id, .inr⟩
      exact fun e => hx (e ▸ List.mem_cons_self _ _)

theorem prefix_unlines_iff {p : List Char} (hp : '\n' ∉ p) {a : List Char}
    {ls : List (List Char)} : p <+: unlines (a :: ls) ↔ p <+: a := by
  cases ls with
  | nil => simp
  | cons b ls =>
      rw [unlines_cons_cons]
      exact ⟨fun h => prefix_of_prefix_append_cons h hp, fun h => h.trans (List.prefix_append _ _)⟩

theorem infix_newline_unlines_iff {p : List Char} (hp : '\n' ∉ p) :
    ∀ {ls : List (List Char)}, (∀ l ∈ ls, '\n' ∉ l) →
      ('\n' :: p <:+: unlines ls ↔ ∃ l ∈ ls.tail, p <+: l)
  | [], _ => by simp [List.infix_nil]
  | [a], h => by
      simp only [unlines_singleton, List.tail_cons, List.not_mem_nil, false_and, exists_false,
        iff_false]
      exact fun hi => h a (List.mem_singleton_self _) (hi.subset (List.mem_cons_self _ _))
  | a :: b :: ls, h => by
      simp only [List.forall_mem_cons] at h
      rw [unlines_cons_cons, infix_append_iff_of_head h.1, List.infix_cons_iff,
        List.cons_prefix_cons, infix_newline_unlines_iff hp (List.forall_mem_cons.2 h.2),
        prefix_unlines_iff hp]
      simp

/-! ### Regex substitution -/

/-- A regex pattern as `reSub` tries it at one position: from the character before and the
text from there, the length of the match and its replacement. -/
abbrev Pattern := Option Char → List Char → Option (Nat × List Char)

/-- `re.sub` over a pattern tried at each position from the left. `m before s` tries the
pattern at the start of `s`, where `before` is the character of the original text just
before that position (what a lookbehind reads); on a match it gives the length of the
match and its replacement, and scanning resumes after the match: `skip` counts the
characters of the match still to pass over. -/
def reSub (m : Option Char → List Char → Option (Nat × List Char)) :
    Nat → Option Char → List Char → List Char
  | _, _, [] => []
  | skip + 1, _, c :: s => reSub m skip (some c) s
  | 0, before, c :: s =>
      match m before (c :: s) with
      | some (k, r) => r ++ reSub m (k - 1) (some c) s
      | none => c :: reSub m 0 (some c) s

/-- `re.sub(pattern, repl, s)` over the whole of `s`. -/
def sub (m : Option Char → List Char → Option (Nat × List Char)) (s : List Char) :
    List Char :=
  reSub m 0 none s

/-- The pattern of `str.replace(old, new)`: the text `old` itself. -/
def literal (old new : List Char) (_ : Option Char) (s : List Char) :
    Option (Nat × List Char) :=
  if old <+: s then some (old.length, new) else none

/-- `s.replace(old, new)` for a non-empty `old`: every occurrence, from the left,
without overlaps. -/
def replace (old new s : List Char) : List Char := sub (literal old new) s

/-- The pattern matches at no position of `s`. -/
def NoMatch (m : Option Char → List Char → Option (Nat × List Char)) :
    Option Char → List Char → Prop
  | _, [] => True
  | before, c :: s => m before (c :: s) = none ∧ NoMatch m (some c) s

/-- `re.search(pattern, s)`: the pattern matches at some position of `s`. -/
def search (m : Option Char → List Char → Option (Nat × List Char)) :
    Option Char → List Char → Bool
  | _, [] => false
  | before, c :: s => (m before (c :: s)).isSome || search m (some c) s

variable {m : Option Char → List Char → Option (Nat × List Char)}

theorem reSub_of_noMatch : ∀ {b : Option Char} {s : List Char}, NoMatch m b s → reSub m 0 b s = s
  | _, [], _ => rfl
  | _, _ :: _, ⟨h, hs⟩ => by simp only [reSub, h, reSub_of_noMatch hs]

theorem noMatch_of_search_eq_false :
    ∀ {b : Option Char} {s : List Char}, search m b s = false → NoMatch m b s
  | _, [], _ => trivial
  | _, _ :: _, h => by
      simp only [search, Bool.or_eq_false_iff] at h
      exact ⟨Option.not_isSome_iff_eq_none.1 (by simp [h.1]), noMatch_of_search_eq_false h.2⟩

theorem noMatch_of_forall :
    ∀ {b : Option Char} {s : List Char}, (∀ b' u, u <:+ s → m b' u = none) → NoMatch m b s
  | _, [], _ => trivial
  | _, _ :: _, h =>
      ⟨h _ _ (List.suffix_refl _), noMatch_of_forall fun b' u hu => h b' u (hu.trans (List.suffix_cons _ _))⟩

theorem search_eq_false_of_absent {p : List Char} (hm : ∀ b u, m b u ≠ none → p <:+: u) :
    ∀ {b : Option Char} {s : List Char}, ¬ p <:+: s → search m b s = false
  | _, [], _ => rfl
  | b, c :: s, h => by
      have hc : m b (c :: s) = none := by_contra fun hc => h (hm _ _ hc)
      simp only [search, hc, Option.isSome_none, Bool.false_or]
      exact search_eq_false_of_absent hm fun hs => h (hs.trans (List.suffix_cons _ _).isInfix)

theorem sub_of_forall_none {s : List Char} (h : ∀ b u, u <:+ s → m b u = none) : sub m s = s :=
  reSub_of_noMatch (noMatch_of_forall h)

theorem sub_of_not_mem {c : Char} {s : List Char} (hm : ∀ b u, m b u ≠ none → c ∈ u)
    (hc : c ∉ s) : sub m s = s :=
  sub_of_forall_none fun b u hu => by_contra fun h => hc (hu.subset (hm b u h))

theorem sub_of_search_eq_false {s : List Char} (h : search m none s = false) : sub m s = s :=
  reSub_of_noMatch (noMatch_of_search_eq_false h)

/-- A substitution whose replacements are all empty only deletes characters. -/
theorem reSub_sublist (h : ∀ b s k r, m b s = some (k, r) → r = []) :
    ∀ (k : Nat) (b : Option Char) (s : List Char), List.Sublist (reSub m k b s) s
  | _, _, [] => by simp [reSub]
  | k + 1, _, c :: s => List.Sublist.cons c (reSub_sublist h k (some c) s)
  | 0, b, c :: s => by
      unfold reSub
      split
      · next k r hm =>
          rw [h _ _ _ _ hm, List.nil_append]
          exact List.Sublist.cons c (reSub_sublist h _ _ s)
      · exact List.Sublist.cons₂ c (reSub_sublist h 0 _ s)

/-- A substitution whose matches are non-empty, cover only characters `p` rejects and are
replaced by nothing keeps the characters `p` accepts, in order. -/
theorem reSub_filter {p : Char → Bool}
    (h : ∀ b s k r, m b s = some (k, r) → 0 < k ∧ r = [] ∧ ∀ c ∈ s.take k, p c = false) :
    ∀ (k : Nat) (b : Option Char) (s : List Char), (∀ c ∈ s.take k, p c = false) →
      (reSub m k b s).filter p = s.filter p
  | _, _, [], _ => by simp [reSub]
  | k + 1, _, c :: s, hs => by
      rw [List.take_succ_cons, List.forall_mem_cons] at hs
      show (reSub m k (some c) s).filter p = _
      rw [reSub_filter h k (some c) s hs.2, List.filter_cons_of_neg (by simp [hs.1])]
  | 0, b, c :: s, _ => by
      unfold reSub
      split
      · next k r hm =>
          obtain ⟨hk, rfl, hc⟩ := h _ _ _ _ hm
          obtain ⟨k, rfl⟩ : ∃ j, k = j + 1 := ⟨k - 1, by omega⟩
          rw [List.take_succ_cons, List.forall_mem_cons] at hc
          rw [List.nil_append, Nat.add_sub_cancel, reSub_filter h k _ s hc.2,
            List.filter_cons_of_neg (by simp [hc.1])]
      · rw [List.filter_cons, List.filter_cons, reSub_filter h 0 _ s (by simp)]

/-- Every character a substitution writes is a character of its text, or satisfies `P` when
every replacement is made of such characters and of the matched text. -/
theorem mem_reSub {P : Char → Prop} (h : ∀ b u k r, m b u = some (k, r) → ∀ c ∈ r, P c ∨ c ∈ u) :
    ∀ (k : Nat) (b : Option Char) (s : List Char), ∀ c ∈ reSub m k b s, P c ∨ c ∈ s
  | _, _, [], c, hc => by simp [reSub] at hc
  | k + 1, _, d :: s, c, hc =>
      (mem_reSub h k (some d) s c hc).imp_right (List.mem_cons_of_mem d)
  | 0, b, d :: s, c, hc => by
      unfold reSub at hc
      split at hc
      · next k r hm =>
          rcases List.mem_append.1 hc with hc | hc
          · exact h _ _ _ _ hm c hc
          · exact (mem_reSub h _ _ s c hc).imp_right (List.mem_cons_of_mem d)
      · rcases List.mem_cons.1 hc with rfl | hc
        · exact .inr (List.mem_cons_self _ _)
        · exact (mem_reSub h _ _ s c hc).imp_right (List.mem_cons_of_mem d)

/-- The character before the rest of the text once `t` has been passed over. -/
def lastOr (b : Option Char) (t : List Char) : Option Char :=
  match t.getLast? with
  | some c => some c
  | none => b

theorem lastOr_cons (b : Option Char) (c : Char) (t : List Char) :
    lastOr b (c :: t) = lastOr (some c) t := by
  cases t <;> simp [lastOr, List.getLast?_cons]

theorem lastOr_append_singleton (b : Option Char) (t : List Char) (c : Char) :
    lastOr b (t ++ [c]) = some c := by
  simp [lastOr]

theorem reSub_skip (b : Option Char) (t s : List Char) :
    reSub m t.length b (t ++ s) = reSub m 0 (lastOr b t) s := by
  induction t generalizing b with
  | nil => rfl
  | cons c t ih => rw [lastOr_cons, ← ih]; rfl

theorem reSub_match {b : Option Char} {c : Char} {s r : List Char} {k : Nat}
    (h : m b (c :: s) = some (k + 1, r)) : reSub m 0 b (c :: s) = r ++ reSub m k (some c) s := by
  simp only [reSub, h, Nat.add_sub_cancel]

theorem reSub_noMatch {b : Option Char} {c : Char} {s : List Char}
    (h : m b (c :: s) = none) : reSub m 0 b (c :: s) = c :: reSub m 0 (some c) s := by
  simp only [reSub, h]

theorem reSub_append_of_none {p t : List Char}
    (h : ∀ b u, u <:+ p → u ≠ [] → m b (u ++ t) = none) :
    ∀ b, reSub m 0 b (p ++ t) = p ++ reSub m 0 (lastOr b p) t := by
  induction p with
  | nil => intro b; rfl
  | cons c p ih =>
      intro b
      have hc : m b (c :: (p ++ t)) = none := h b _ (List.suffix_refl _) (List.cons_ne_nil _ _)
      rw [List.cons_append, reSub_noMatch hc,
        ih (fun b u hu hne => h b u (hu.trans (List.suffix_cons _ _)) hne), lastOr_cons]
      rfl

private theorem reSub_literal_self {p : List Char} (hp : p ≠ []) (s : List Char) :
    ∀ (k : Nat) (b : Option Char), reSub (literal p p) k b s = s.drop k := by
  induction s with
  | nil => intro k b; cases k <;> rfl
  | cons c s ih =>
      intro k b
      cases k with
      | succ k => exact ih k (some c)
      | zero =>
          by_cases h : p <+: c :: s
          · obtain ⟨d, q, rfl⟩ := List.exists_cons_of_ne_nil hp
            obtain ⟨rfl, t, rfl⟩ := List.cons_prefix_cons.1 h
            have hm : literal (d :: q) (d :: q) b (d :: (q ++ t)) = some (q.length + 1, d :: q) := by
              simp [literal]
            rw [reSub_match hm, ih]
            simp
          · rw [reSub_noMatch (by simp [literal, h]), ih]
            rfl

theorem replace_self {p : List Char} (hp : p ≠ []) (s : List Char) : replace p p s = s :=
  reSub_literal_self hp s 0 none

theorem infix_of_search_literal {old new : List Char} :
    ∀ {b : Option Char} {s : List Char}, search (literal old new) b s = true → old <:+: s
  | _, [], h => by simp [search] at h
  | _, c :: s, h => by
      simp only [search, Bool.or_eq_true, literal] at h
      rcases h with h | h
      · split at h
        · exact (by assumption : old <+: c :: s).isInfix
        · simp at h
      · exact (infix_of_search_literal h).trans (List.suffix_cons _ _).isInfix

theorem replace_of_not_infix {old new s : List Char} (h : ¬ old <:+: s) : replace old new s = s :=
  sub_of_search_eq_false (Bool.eq_false_iff.2 fun hs => h (infix_of_search_literal hs))

theorem infix_reSub_literal {old new : List Char} (ho : old ≠ []) :
    ∀ {b : Option Char} {s : List Char}, old <:+: s → new <:+: reSub (literal old new) 0 b s
  | _, [], h => absurd (List.eq_nil_of_infix_nil h) ho
  | b, c :: s, h => by
      by_cases hp : old <+: c :: s
      · obtain ⟨d, q, rfl⟩ := List.exists_cons_of_ne_nil ho
        have hm : literal (d :: q) new b (c :: s) = some (q.length + 1, new) := by
          simp [literal, hp]
        rw [reSub_match hm]
        exact (List.prefix_append _ _).isInfix
      · have hm : literal old new b (c :: s) = none := by simp [literal, hp]
        rw [reSub_noMatch hm]
        exact (infix_reSub_literal ho ((List.infix_cons_iff.1 h).resolve_left hp)).trans
          (List.suffix_cons _ _).isInfix

theorem infix_replace {old new s : List Char} (ho : old ≠ []) (h : old <:+: s) :
    new <:+: replace old new s :=
  infix_reSub_literal ho h

/-! ### Transducers over a substitution -/

section Transduce

variable {σ : Type} (δ : σ → Char → σ × List Char)

/-- The output of the left-to-right transducer `δ` run over a text from state `q`. -/
def transduce : σ → List Char → List Char
  | _, [] => []
  | q, c :: s => (δ q c).2 ++ transduce (δ q c).1 s

/-- The state the transducer `δ` is in after a text, from state `q`. -/
def endState (q : σ) (s : List Char) : σ := s.foldl (fun q c => (δ q c).1) q

theorem transduce_append (q : σ) (x y : List Char) :
    transduce δ q (x ++ y) = transduce δ q x ++ transduce δ (endState δ q x) y := by
  induction x generalizing q with
  | nil => rfl
  | cons c x ih => rw [List.cons_append, transduce, transduce, ih, List.append_assoc]; rfl

theorem endState_append (q : σ) (x y : List Char) :
    endState δ q (x ++ y) = endState δ (endState δ q x) y :=
  List.foldl_append _ _ _ _

variable {δ}

/-- A substitution keeps a transducer's output when each match and its replacement give the
same output and end state from every state. -/
theorem transduce_reSub
    (h : ∀ b s k r, m b s = some (k, r) → ∃ x y, s = x ++ y ∧ x.length = k ∧ x ≠ [] ∧
      ∀ q, transduce δ q r = transduce δ q x ∧ endState δ q r = endState δ q x) :
    ∀ (q : σ) (b : Option Char) (s : List Char),
      transduce δ q (reSub m 0 b s) = transduce δ q s
  | _, _, [] => rfl
  | q, b, c :: s => by
      cases hm : m b (c :: s) with
      | none => rw [reSub_noMatch hm, transduce, transduce, transduce_reSub h _ (some c) s]
      | some p =>
        obtain ⟨k, r⟩ := p
        obtain ⟨x, y, hs, rfl, hx, hr⟩ := h _ _ _ _ hm
        obtain ⟨c', x, rfl⟩ := List.exists_cons_of_ne_nil hx
        rw [List.cons_append, List.cons.injEq] at hs
        obtain ⟨rfl, rfl⟩ := hs
        have : y.length < (x ++ y).length + 1 := by simp; omega
        rw [reSub_match hm, reSub_skip, transduce_append, (hr q).1, (hr q).2,
          transduce_reSub h _ _ y, ← transduce_append]
        rfl
termination_by _ _ s => s.length

end Transduce

end DocFix
