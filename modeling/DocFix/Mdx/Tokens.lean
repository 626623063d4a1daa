import DocFix.Text.Basic

/-!
Lines as `escape_jsx_patterns` leaves them. A token is a plain character, never a
backslash, or one of `<`, `{`, `}` with a backslash in front; a line with no backslash is
all plain tokens. Read on tokens, every substitution of the pass escapes some plain
characters and deletes some dashes next to them. This module gives the token view and
what holds of any such substitution: on `render ts` it computes what its token form
computes on `ts` (`reSub_render`), it only escapes and deletes as `Escapes` allows, and so
it only ever shortens the runs of plain characters (`Coarser`): a run of plain characters
in its output was one in its input.
-/

namespace DocFix.Mdx

/-- The characters the pass escapes. -/
inductive Escapable
  | lt
  | lbrace
  | rbrace
  deriving DecidableEq, Repr

def Escapable.toChar : Escapable → Char
  | .lt => '<'
  | .lbrace => '{'
  | .rbrace => '}'

theorem Escapable.toChar_ne_backslash (e : Escapable) : e.toChar ≠ '\\' := by
  cases e <;> decide

/-- A character of a line: plain, or escaped by a backslash in front of it. -/
inductive Tok
  | plain (c : Char) (h : c ≠ '\\')
  | esc (e : Escapable)

def Tok.render : Tok → List Char
  | .plain c _ => [c]
  | .esc e => ['\\', e.toChar]

/-- The plain character of a token, `none` for an escaped one. -/
def Tok.view : Tok → Option Char
  | .plain c _ => some c
  | .esc _ => none

/-- The text of a token list. -/
def render (ts : List Tok) : List Char := ts.flatMap Tok.render

/-- The plain characters of a token list, in place. -/
def view (ts : List Tok) : List (Option Char) := ts.map Tok.view

/-- A line with no backslash, as plain tokens. -/
def plains : (l : List Char) → '\\' ∉ l → List Tok
  | [], _ => []
  | c :: l, h =>
      .plain c (fun e => h (e ▸ List.mem_cons_self c l)) ::
        plains l (fun e => h (List.mem_cons_of_mem c e))

@[simp] theorem render_nil : render [] = [] := rfl

theorem render_cons (t : Tok) (ts : List Tok) : render (t :: ts) = t.render ++ render ts := rfl

@[simp] theorem render_plain_cons (c : Char) (h : c ≠ '\\') (ts : List Tok) :
    render (.plain c h :: ts) = c :: render ts := rfl

@[simp] theorem render_esc_cons (e : Escapable) (ts : List Tok) :
    render (.esc e :: ts) = '\\' :: e.toChar :: render ts := rfl

@[simp] theorem render_append (ts us : List Tok) : render (ts ++ us) = render ts ++ render us := by
  simp [render]

@[simp] theorem view_nil : view [] = [] := rfl

@[simp] theorem view_cons (t : Tok) (ts : List Tok) : view (t :: ts) = t.view :: view ts := rfl

@[simp] theorem view_append (ts us : List Tok) : view (ts ++ us) = view ts ++ view us := by
  simp [view]

@[simp] theorem render_plains (l : List Char) (h : '\\' ∉ l) : render (plains l h) = l := by
  induction l with
  | nil => rfl
  | cons c l ih => simp [plains, ih]

@[simp] theorem view_plains (l : List Char) (h : '\\' ∉ l) : view (plains l h) = l.map some := by
  induction l with
  | nil => rfl
  | cons c l ih => simp [plains, Tok.view, ih]

theorem lastOr_render {b : Option Char} (hb : b ≠ some '\\') :
    ∀ ts : List Tok, lastOr b (render ts) ≠ some '\\'
  | [] => hb
  | .plain c h :: ts => by
      rw [render_plain_cons, lastOr_cons]
      exact lastOr_render (by simpa using h) ts
  | .esc e :: ts => by
      rw [render_esc_cons, lastOr_cons, lastOr_cons]
      exact lastOr_render (by simpa using e.toChar_ne_backslash) ts

theorem not_infix_backslash_backslash : ∀ ts : List Tok, ¬ ['\\', '\\'] <:+: render ts
  | [] => by simp
  | .plain c h :: ts => by
      rw [render_plain_cons, List.infix_cons_iff, List.cons_prefix_cons]
      exact fun hi => hi.elim (fun hp => h hp.1.symm) (not_infix_backslash_backslash ts)
  | .esc e :: ts => by
      have he := e.toChar_ne_backslash
      rw [render_esc_cons, List.infix_cons_iff, List.cons_prefix_cons, List.infix_cons_iff,
        List.cons_prefix_cons, List.cons_prefix_cons]
      rintro (⟨-, h, -⟩ | ⟨h, -⟩ | hi)
      · exact he h.symm
      · exact he h.symm
      · exact not_infix_backslash_backslash ts hi

/-! ### Plain text in rendered tokens -/

/-- A character that never stands in an escape: not a backslash and not escapable. -/
def unescaped (c : Char) : Bool := c != '\\' && c != '<' && c != '{' && c != '}'

theorem prefix_render_iff {p : List Char} (hp : '\\' ∉ p) :
    ∀ {ts : List Tok}, p <+: render ts ↔ p.map some <+: view ts := by
  induction p with
  | nil => simp
  | cons a p ih =>
      have ha : a ≠ '\\' := fun e => hp (e ▸ List.mem_cons_self _ _)
      intro ts
      match ts with
      | [] => simp
      | .plain c h :: ts =>
          simp only [render_plain_cons, view_cons, Tok.view, List.map_cons, List.cons_prefix_cons,
            Option.some.injEq, ih fun e => hp (List.mem_cons_of_mem _ e)]
      | .esc e :: ts => simp [List.cons_prefix_cons, Tok.view, ha]

theorem infix_render_iff {p : List Char} (hp : ∀ c ∈ p, unescaped c = true) :
    ∀ {ts : List Tok}, p <:+: render ts ↔ p.map some <:+: view ts := by
  have hb : '\\' ∉ p := fun e => by simpa [unescaped] using hp _ e
  intro ts
  induction ts with
  | nil => simp [List.infix_nil]
  | cons t ts ih =>
      cases t with
      | plain c h =>
          have := @prefix_render_iff p hb (.plain c h :: ts)
          rw [render_plain_cons] at this
          rw [render_plain_cons, List.infix_cons_iff, view_cons, List.infix_cons_iff, this, ih]
          rfl
      | esc e =>
          cases p with
          | nil => simp
          | cons a p =>
              have ha := hp a (List.mem_cons_self _ _)
              have hae : a ≠ e.toChar := by cases e <;> simp_all [unescaped, Escapable.toChar]
              simp only [unescaped, bne_iff_ne, ne_eq, Bool.and_eq_true, decide_eq_true_eq] at ha
              simp [render_esc_cons, List.infix_cons_iff, List.cons_prefix_cons, ha.1, hae, ih,
                Tok.view]

@[simp] theorem render_eq_nil {ts : List Tok} : render ts = [] ↔ ts = [] := by
  cases ts with
  | nil => simp
  | cons t ts => cases t <;> simp

theorem mem_render_iff {c : Char} (hc : unescaped c = true) {ts : List Tok} :
    c ∈ render ts ↔ some c ∈ view ts := by
  induction ts with
  | nil => simp
  | cons t ts ih =>
      cases t with
      | plain d h => simp [Tok.view, ih]
      | esc e =>
          have : c ≠ '\\' ∧ c ≠ e.toChar := by
            cases e <;> simp_all [unescaped, Escapable.toChar]
          simp [Tok.view, ih, this.1, this.2]

theorem dropWhile_isSpace_render (ts : List Tok) :
    (render ts).dropWhile isSpace = render (ts.dropWhile fun t => t.view.any isSpace) := by
  induction ts with
  | nil => rfl
  | cons t ts ih =>
      cases t with
      | plain c h =>
          by_cases hc : isSpace c = true
          · simp [Tok.view, hc, ih]
          · simp [Tok.view, hc]
      | esc e => simp [Tok.view, isSpace]

theorem prefix_map_some_iff {p q : List Char} : p.map some <+: q.map some ↔ p <+: q := by
  refine ⟨fun h => ?_, fun h => h.map some⟩
  induction p generalizing q with
  | nil => exact List.nil_prefix
  | cons a p ih =>
      cases q with
      | nil => simp at h
      | cons b q =>
          simp only [List.map_cons, List.cons_prefix_cons, Option.some.injEq] at h ⊢
          exact ⟨h.1, ih h.2⟩

/-! ### Substitution over tokens -/

/-- `reSub` over tokens: `m ts` gives the number of tokens a match takes and its
replacement. -/
def reSubTok (m : List Tok → Option (Nat × List Tok)) : Nat → List Tok → List Tok
  | _, [] => []
  | skip + 1, _ :: ts => reSubTok m skip ts
  | 0, t :: ts =>
      match m (t :: ts) with
      | some (k, r) => r ++ reSubTok m (k - 1) ts
      | none => t :: reSubTok m 0 ts

section Tokens

variable {m : List Tok → Option (Nat × List Tok)}

theorem reSubTok_skip (k : Nat) (ts : List Tok) : reSubTok m k ts = reSubTok m 0 (ts.drop k) := by
  induction ts generalizing k with
  | nil => cases k <;> rfl
  | cons t ts ih =>
      cases k with
      | zero => rfl
      | succ k => exact ih k

theorem reSubTok_match {t : Tok} {ts r : List Tok} {k : Nat} (h : m (t :: ts) = some (k, r)) :
    reSubTok m 0 (t :: ts) = r ++ reSubTok m 0 (ts.drop (k - 1)) := by
  simp only [reSubTok, h]
  rw [reSubTok_skip]

theorem reSubTok_noMatch {t : Tok} {ts : List Tok} (h : m (t :: ts) = none) :
    reSubTok m 0 (t :: ts) = t :: reSubTok m 0 ts := by
  simp only [reSubTok, h]

theorem reSubTok_of_none : ∀ {ts : List Tok}, (∀ us, us <:+ ts → m us = none) →
    reSubTok m 0 ts = ts
  | [], _ => rfl
  | _ :: _, h => by
      rw [reSubTok_noMatch (h _ (List.suffix_refl _)),
        reSubTok_of_none fun us hu => h us (hu.trans (List.suffix_cons _ _))]

end Tokens


/-! ### Runs of plain characters -/

/-- `Coarser v' v`: the view `v'` is `v` with some of `<`, `{`, `}` escaped, and some dashes
deleted together with a brace escaped beside them. -/
inductive Coarser : List (Option Char) → List (Option Char) → Prop
  | nil : Coarser [] []
  | keep (x : Option Char) {v' v : List (Option Char)} : Coarser v' v → Coarser (x :: v') (x :: v)
  | escape (c : Char) {v' v : List (Option Char)} : c = '<' ∨ c = '{' ∨ c = '}' →
      Coarser v' v → Coarser (none :: v') (some c :: v)
  | dashAfter {v' v : List (Option Char)} :
      Coarser v' v → Coarser (none :: v') (some '{' :: some '-' :: v)
  | dashBefore {v' v : List (Option Char)} :
      Coarser v' v → Coarser (none :: v') (some '-' :: some '}' :: v)

namespace Coarser

theorem prefix_map_some {v' v : List (Option Char)} (h : Coarser v' v) :
    ∀ {p : List Char}, p.map some <+: v' → p.map some <+: v := by
  induction h with
  | nil => exact id
  | keep x _ ih =>
      intro p hp
      cases p with
      | nil => exact List.nil_prefix
      | cons a p =>
          rw [List.map_cons, List.cons_prefix_cons] at hp ⊢
          exact ⟨hp.1, ih hp.2⟩
  | escape _ _ _ _ | dashAfter _ _ | dashBefore _ _ =>
      intro p hp
      cases p with
      | nil => exact List.nil_prefix
      | cons a p => simp [List.cons_prefix_cons] at hp

theorem infix_map_some {v' v : List (Option Char)} (h : Coarser v' v) :
    ∀ {p : List Char}, p.map some <:+: v' → p.map some <:+: v := by
  induction h with
  | nil => exact id
  | keep x h ih =>
      intro p hp
      rcases List.infix_cons_iff.1 hp with hp | hp
      · exact (prefix_map_some (keep x h) hp).isInfix
      · exact (ih hp).trans (List.infix_cons (List.infix_refl _))
  | escape c _ _ ih =>
      intro p hp
      cases p with
      | nil => exact List.nil_infix
      | cons a p =>
          rcases List.infix_cons_iff.1 hp with hp | hp
          · simp [List.cons_prefix_cons] at hp
          · exact (ih hp).trans (List.suffix_cons _ _).isInfix
  | dashAfter _ ih | dashBefore _ ih =>
      intro p hp
      cases p with
      | nil => exact List.nil_infix
      | cons a p =>
          rcases List.infix_cons_iff.1 hp with hp | hp
          · simp [List.cons_prefix_cons] at hp
          · exact (ih hp).trans ((List.suffix_cons _ _).trans (List.suffix_cons _ _)).isInfix

theorem dropWhile_space {v' v : List (Option Char)} (h : Coarser v' v) :
    Coarser (v'.dropWhile fun o => o.any isSpace) (v.dropWhile fun o => o.any isSpace) := by
  induction h with
  | nil => exact nil
  | keep x h ih =>
      by_cases hx : x.any isSpace = true
      · simpa [List.dropWhile_cons, hx] using ih
      · simpa [List.dropWhile_cons, hx] using keep x h
  | escape c hc h _ =>
      have : isSpace c = false := by rcases hc with rfl | rfl | rfl <;> rfl
      simpa [List.dropWhile_cons, this] using escape c hc h
  | dashAfter h _ =>
      have : isSpace '{' = false := rfl
      simpa [List.dropWhile_cons, this] using dashAfter h
  | dashBefore h _ =>
      have : isSpace '-' = false := rfl
      simpa [List.dropWhile_cons, this] using dashBefore h

theorem trans {a b c : List (Option Char)} (hab : Coarser a b) (hbc : Coarser b c) :
    Coarser a c := by
  induction hab generalizing c with
  | nil => cases hbc; exact nil
  | keep x _ ih =>
      cases hbc with
      | keep _ h => exact keep x (ih h)
      | escape d hd h => exact escape d hd (ih h)
      | dashAfter h => exact dashAfter (ih h)
      | dashBefore h => exact dashBefore (ih h)
  | escape d hd _ ih =>
      cases hbc with
      | keep _ h => exact escape d hd (ih h)
  | dashAfter _ ih =>
      cases hbc with
      | keep _ h => cases h with
        | keep _ h => exact dashAfter (ih h)
  | dashBefore _ ih =>
      cases hbc with
      | keep _ h => cases h with
        | keep _ h => exact dashBefore (ih h)

theorem mem_iff {c : Char} (hc : c ≠ '<' ∧ c ≠ '{' ∧ c ≠ '}' ∧ c ≠ '-')
    {v' v : List (Option Char)} (h : Coarser v' v) : some c ∈ v' ↔ some c ∈ v := by
  induction h with
  | nil => exact Iff.rfl
  | keep x _ ih => simp only [List.mem_cons, ih]
  | escape d hd _ ih =>
      have : c ≠ d := by rintro rfl; rcases hd with rfl | rfl | rfl <;> simp at hc
      simp [ih, this]
  | dashAfter _ ih | dashBefore _ ih => simp [ih, hc.2.1, hc.2.2.1, hc.2.2.2]

end Coarser

/-! ### What a substitution does to the tokens -/

/-- `Escapes ts' ts`: the tokens `ts'` are `ts` with some plain `<`, `{`, `}` escaped, and some
dashes deleted beside a brace escaped with them. -/
inductive Escapes : List Tok → List Tok → Prop
  | nil : Escapes [] []
  | keep (t : Tok) {ts' ts : List Tok} : Escapes ts' ts → Escapes (t :: ts') (t :: ts)
  | escape (e : Escapable) (h : e.toChar ≠ '\\') {ts' ts : List Tok} :
      Escapes ts' ts → Escapes (.esc e :: ts') (.plain e.toChar h :: ts)
  | dashAfter (h₁ : '{' ≠ '\\') (h₂ : '-' ≠ '\\') {ts' ts : List Tok} :
      Escapes ts' ts → Escapes (.esc .lbrace :: ts') (.plain '{' h₁ :: .plain '-' h₂ :: ts)
  | dashBefore (h₁ : '-' ≠ '\\') (h₂ : '}' ≠ '\\') {ts' ts : List Tok} :
      Escapes ts' ts → Escapes (.esc .rbrace :: ts') (.plain '-' h₁ :: .plain '}' h₂ :: ts)

namespace Escapes

theorem refl : ∀ ts : List Tok, Escapes ts ts
  | [] => nil
  | t :: ts => keep t (refl ts)

theorem append {a' a b' b : List Tok} (ha : Escapes a' a) (hb : Escapes b' b) :
    Escapes (a' ++ b') (a ++ b) := by
  induction ha with
  | nil => exact hb
  | keep t _ ih => exact keep t ih
  | escape e h _ ih => exact escape e h ih
  | dashAfter h₁ h₂ _ ih => exact dashAfter h₁ h₂ ih
  | dashBefore h₁ h₂ _ ih => exact dashBefore h₁ h₂ ih

theorem trans {a b c : List Tok} (hab : Escapes a b) (hbc : Escapes b c) : Escapes a c := by
  induction hab generalizing c with
  | nil => cases hbc; exact nil
  | keep t _ ih =>
      cases hbc with
      | keep _ h => exact keep t (ih h)
      | escape e he h => exact escape e he (ih h)
      | dashAfter h₁ h₂ h => exact dashAfter h₁ h₂ (ih h)
      | dashBefore h₁ h₂ h => exact dashBefore h₁ h₂ (ih h)
  | escape e he _ ih =>
      cases hbc with
      | keep _ h => exact escape e he (ih h)
  | dashAfter h₁ h₂ _ ih =>
      cases hbc with
      | keep _ h => cases h with
        | keep _ h => exact dashAfter h₁ h₂ (ih h)
  | dashBefore h₁ h₂ _ ih =>
      cases hbc with
      | keep _ h => cases h with
        | keep _ h => exact dashBefore h₁ h₂ (ih h)

theorem coarser {ts' ts : List Tok} (h : Escapes ts' ts) : Coarser (view ts') (view ts) := by
  induction h with
  | nil => exact .nil
  | keep t _ ih => exact .keep _ ih
  | escape e _ _ ih => exact .escape e.toChar (by cases e <;> simp [Escapable.toChar]) ih
  | dashAfter _ _ _ ih => exact .dashAfter ih
  | dashBefore _ _ _ ih => exact .dashBefore ih

end Escapes

/-- A substitution whose every match takes a token or more and only escapes and deletes as
`Escapes` allows does so over the whole token list. -/
theorem escapes_reSubTok {m : List Tok → Option (Nat × List Tok)}
    (hm : ∀ ts k r, m ts = some (k, r) → 0 < k ∧ Escapes r (ts.take k)) :
    ∀ ts : List Tok, Escapes (reSubTok m 0 ts) ts
  | [] => .nil
  | t :: ts => by
      cases h : m (t :: ts) with
      | none =>
          rw [reSubTok_noMatch h]
          exact .keep _ (escapes_reSubTok hm ts)
      | some p =>
          obtain ⟨k, r⟩ := p
          obtain ⟨hk, hc⟩ := hm _ _ _ h
          rw [reSubTok_match h, ← List.take_append_drop k (t :: ts)]
          obtain ⟨k, rfl⟩ := Nat.exists_eq_add_of_lt hk
          simp only [Nat.zero_add, List.drop_succ_cons, Nat.add_sub_cancel] at hc ⊢
          exact hc.append (escapes_reSubTok hm (ts.drop k))
termination_by ts => ts.length

/-! ### Simulation of a character pattern by a token pattern -/

/-- At the start of `ts`, after anything but a backslash, the pattern `mc` matches
`render ts` where `mt` matches `ts`, over the rendered tokens, with the rendered
replacement. -/
def Simulates (mc : Pattern) (mt : List Tok → Option (Nat × List Tok)) (ts : List Tok) : Prop :=
  ∀ b, b ≠ some '\\' →
    mc b (render ts) = (mt ts).map fun p => ((render (ts.take p.1)).length, render p.2)

/-- After a backslash, the pattern does not match at the escaped character: it has a
lookbehind `(?<!\\)`. -/
def Guarded (mc : Pattern) : Prop := ∀ e s, mc (some '\\') (Escapable.toChar e :: s) = none

/-- What the token form of a substitution of the pass satisfies: it never matches at an
escaped token, and every match takes a token or more and only escapes and deletes as
`Escapes` allows. -/
structure Escaping (mt : List Tok → Option (Nat × List Tok)) : Prop where
  esc_none : ∀ e ts, mt (.esc e :: ts) = none
  escapes : ∀ ts k r, mt ts = some (k, r) → 0 < k ∧ Escapes r (ts.take k)

theorem coarser_reSubTok {mt : List Tok → Option (Nat × List Tok)} (he : Escaping mt)
    (ts : List Tok) : Coarser (view (reSubTok mt 0 ts)) (view ts) :=
  (escapes_reSubTok he.escapes ts).coarser

section Simulation

variable {mc : Pattern} {mt : List Tok → Option (Nat × List Tok)}

variable (hg : Guarded mc) (he : Escaping mt)
include hg he

private theorem reSub_render_aux (n : Nat) :
    ∀ ts : List Tok, ts.length ≤ n → ∀ b, b ≠ some '\\' →
      (∀ us, us <:+ ts → Simulates mc mt us) →
      reSub mc 0 b (render ts) = render (reSubTok mt 0 ts) := by
  induction n with
  | zero =>
      intro ts hn b _ _
      rw [List.length_eq_zero.1 (Nat.le_zero.1 hn)]
      rfl
  | succ n ih =>
      intro ts hn b hb hs
      match ts, hn, hs with
      | [], _, _ => rfl
      | .plain c h :: ts, hn, hs =>
          have hsim := hs _ (List.suffix_refl _) b hb
          have hc : some c ≠ some '\\' := by simpa using h
          have hs' : ∀ us, us <:+ ts → Simulates mc mt us := fun us hu =>
            hs us (hu.trans (List.suffix_cons _ _))
          rw [render_plain_cons] at hsim
          cases hm : mt (.plain c h :: ts) with
          | none =>
              rw [hm, Option.map_none'] at hsim
              rw [reSubTok_noMatch hm, render_plain_cons, reSub_noMatch hsim,
                ih ts (by simpa using hn) (some c) hc hs', render_plain_cons]
          | some p =>
              obtain ⟨k, r⟩ := p
              obtain ⟨k, rfl⟩ := Nat.exists_eq_add_of_lt (he.escapes _ _ _ hm).1
              rw [hm, Option.map_some'] at hsim
              simp only [Nat.zero_add, List.take_succ_cons, render_plain_cons,
                List.length_cons] at hsim hm
              have hts : render ts = render (ts.take k) ++ render (ts.drop k) := by
                rw [← render_append, List.take_append_drop]
              rw [reSubTok_match hm, render_plain_cons, reSub_match hsim, hts, reSub_skip,
                render_append, Nat.add_sub_cancel,
                ih _ (by simp only [List.length_drop, List.length_cons] at hn ⊢; omega) _
                  (lastOr_render hc _) fun us hu => hs' us (hu.trans (List.drop_suffix _ _))]
      | .esc e :: ts, hn, hs =>
          have hsim := hs _ (List.suffix_refl _) b hb
          have hs' : ∀ us, us <:+ ts → Simulates mc mt us := fun us hu =>
            hs us (hu.trans (List.suffix_cons _ _))
          rw [he.esc_none, Option.map_none', render_esc_cons] at hsim
          rw [reSubTok_noMatch (he.esc_none e ts), render_esc_cons, reSub_noMatch hsim,
            reSub_noMatch (hg e _),
            ih ts (by simpa using hn) _ (by simpa using e.toChar_ne_backslash) hs',
            render_esc_cons]

/-- A token pattern that simulates a character pattern at every suffix gives the same
substitution: `re.sub` on the text is the token substitution, rendered. -/
theorem reSub_render {ts : List Tok} {b : Option Char} (hb : b ≠ some '\\')
    (hs : ∀ us, us <:+ ts → Simulates mc mt us) :
    reSub mc 0 b (render ts) = render (reSubTok mt 0 ts) :=
  reSub_render_aux hg he ts.length ts le_rfl b hb hs

end Simulation

/-! ### Patterns a substitution leaves no trace of -/

/-- A pattern of the view read from one position on, which starts at a plain `a` and which
a finer view has wherever a coarser one has it. -/
structure Anchored (a : Char) (Q : List (Option Char) → Prop) : Prop where
  head : ∀ v, Q v → v.head? = some (some a)
  reflect : ∀ {v' v}, Coarser v' v → Q v' → Q v

/-- No position of the view starts the pattern `Q`. -/
def Avoids (Q : List (Option Char) → Prop) (v : List (Option Char)) : Prop :=
  ∀ u, u <:+ v → ¬ Q u

theorem Avoids.of_cons {Q : List (Option Char) → Prop} {x : Option Char}
    {v : List (Option Char)} (h : Avoids Q (x :: v)) : Avoids Q v :=
  fun u hu => h u (hu.trans (List.suffix_cons _ _))

private theorem head_mem_of_suffix_append {α : Type} {u : List α} :
    ∀ {A B : List α}, u <:+ A ++ B → u <:+ B ∨ ∃ x ∈ A, u.head? = some x
  | [], _, h => .inl h
  | y :: A, B, h => by
      rcases List.suffix_cons_iff.1 h with rfl | h
      · exact .inr ⟨y, List.mem_cons_self _ _, rfl⟩
      · rcases head_mem_of_suffix_append h with h | ⟨x, hx, hu⟩
        · exact .inl h
        · exact .inr ⟨x, List.mem_cons_of_mem _ hx, hu⟩

section Anchors

variable {a : Char} {Q : List (Option Char) → Prop} (hQ : Anchored a Q)
include hQ

theorem Anchored.not_nil : ¬ Q [] := fun hq => by simpa using hQ.head _ hq

theorem Anchored.avoids {v' v : List (Option Char)} (h : Coarser v' v) (hv : Avoids Q v) :
    Avoids Q v' := by
  induction h with
  | nil => exact hv
  | keep x h ih =>
      intro u hu
      rcases List.suffix_cons_iff.1 hu with rfl | hu
      · exact fun hq => hv _ (List.suffix_refl _) (hQ.reflect (.keep x h) hq)
      · exact ih hv.of_cons u hu
  | escape _ _ _ ih =>
      intro u hu
      rcases List.suffix_cons_iff.1 hu with rfl | hu
      · exact fun hq => by simpa using hQ.head _ hq
      · exact ih hv.of_cons u hu
  | dashAfter _ ih | dashBefore _ ih =>
      intro u hu
      rcases List.suffix_cons_iff.1 hu with rfl | hu
      · exact fun hq => by simpa using hQ.head _ hq
      · exact ih hv.of_cons.of_cons u hu

/-- A substitution that matches wherever the anchored pattern starts, and whose replacements
have no plain `a`, leaves no place where the pattern starts. -/
theorem Anchored.avoids_reSubTok {m : List Tok → Option (Nat × List Tok)} (he : Escaping m)
    (ha : ∀ ts k r, m ts = some (k, r) → some a ∉ view r) (hs : ∀ ts, Q (view ts) → m ts ≠ none) :
    ∀ ts : List Tok, Avoids Q (view (reSubTok m 0 ts))
  | [] => fun u hu => by
      rw [List.eq_nil_of_suffix_nil hu]
      exact hQ.not_nil
  | t :: ts => by
      cases h : m (t :: ts) with
      | none =>
          rw [reSubTok_noMatch h, view_cons]
          intro u hu
          rcases List.suffix_cons_iff.1 hu with rfl | hu
          · exact fun hq => hs (t :: ts) (hQ.reflect (.keep _ (coarser_reSubTok he ts)) hq) h
          · exact Anchored.avoids_reSubTok he ha hs ts u hu
      | some q =>
          obtain ⟨k, r⟩ := q
          rw [reSubTok_match h, view_append]
          intro u hu hq
          rcases head_mem_of_suffix_append hu with hu | ⟨x, hx, hux⟩
          · exact Anchored.avoids_reSubTok he ha hs _ u hu hq
          · rw [hQ.head u hq, Option.some.injEq] at hux
            exact ha _ _ _ h (hux ▸ hx)
termination_by ts => ts.length

end Anchors

section Runs

variable {m : List Tok → Option (Nat × List Tok)}

theorem forall_mem_reSubTok {P : Tok → Prop}
    (hm : ∀ ts k r, m ts = some (k, r) → (∀ t ∈ ts, P t) → ∀ t ∈ r, P t) :
    ∀ ts : List Tok, (∀ t ∈ ts, P t) → ∀ t ∈ reSubTok m 0 ts, P t
  | [], _ => by simp [reSubTok]
  | t :: ts, h => by
      cases hm' : m (t :: ts) with
      | none =>
          rw [reSubTok_noMatch hm']
          simp only [List.forall_mem_cons] at h ⊢
          exact ⟨h.1, forall_mem_reSubTok hm ts h.2⟩
      | some q =>
          obtain ⟨k, r⟩ := q
          rw [reSubTok_match hm']
          intro x hx
          rcases List.mem_append.1 hx with hx | hx
          · exact hm _ _ _ hm' h x hx
          · exact forall_mem_reSubTok hm _
              (fun y hy => h y (List.mem_cons_of_mem _ (List.mem_of_mem_drop hy))) x hx
termination_by ts => ts.length

theorem reSubTok_append_of_head {w : List Tok} (hw : ∀ t ∈ w, ∀ r, m (t :: r) = none)
    (x : List Tok) : reSubTok m 0 (w ++ x) = w ++ reSubTok m 0 x := by
  induction w with
  | nil => rfl
  | cons t w ih =>
      simp only [List.forall_mem_cons] at hw
      rw [List.cons_append, reSubTok_noMatch (hw.1 _), ih hw.2, List.cons_append]

end Runs

end DocFix.Mdx
