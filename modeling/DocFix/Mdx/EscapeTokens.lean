import DocFix.Mdx.Escape
import DocFix.Mdx.Tokens

/-!
The substitutions of `escape_jsx_patterns` read on tokens. Each regex of the pass has a
token form, and at a token boundary the regex matches the rendered tokens exactly where
its token form matches; `escapeLine` on rendered tokens is then `escapeTokens`, rendered.
The one regex whose token form is partial is `\{([^{}]+)\}`: it also matches a plain `{`
followed by an escaped `}`, whose backslash it takes into the group (`escClosed`), and
there the result has a doubled backslash that no token list renders.
-/

namespace DocFix.Mdx

/-- The token is a plain ASCII letter. -/
def Tok.isAlpha : Tok → Bool
  | .plain c _ => c.isAlpha
  | .esc _ => false

/-- The token's text has no brace: the class `[^{}]` on tokens. -/
def Tok.braceFree : Tok → Bool
  | .plain c _ => notBrace c
  | .esc e => e == .lt

/-- The token is a plain dash. -/
def Tok.isDash (t : Tok) : Bool := t.view == some '-'

/-! ### The token forms of the substitutions -/

/-- `ltDigit` on tokens. -/
def tokLtDigit : List Tok → Option (Nat × List Tok)
  | .plain '<' _ :: .plain d h :: _ =>
      if isDigit d then some (2, [.esc .lt, .plain d h]) else none
  | _ => none

/-- `ltChan` on tokens: a plain `<-chan` gets its `<` escaped. -/
def tokLtChan (ts : List Tok) : Option (Nat × List Tok) :=
  if "<-chan".toList.map some <+: view ts then some (6, .esc .lt :: (ts.take 6).tail) else none

/-- `ltDash` on tokens. -/
def tokLtDash : List Tok → Option (Nat × List Tok)
  | .plain '<' _ :: .plain '-' h :: rest =>
      if rest.head?.any Tok.isAlpha = false then some (2, [.esc .lt, .plain '-' h]) else none
  | _ => none

/-- `emptyBraces` on tokens. -/
def tokEmptyBraces : List Tok → Option (Nat × List Tok)
  | .plain '{' _ :: .plain '}' _ :: _ => some (2, [.esc .lbrace, .esc .rbrace])
  | _ => none

/-- `bracedWord` on tokens, closed by a plain `}`. -/
def tokBracedWord : List Tok → Option (Nat × List Tok)
  | .plain '{' _ :: rest =>
      let w := rest.takeWhile Tok.braceFree
      match rest.dropWhile Tok.braceFree with
      | .plain '}' _ :: _ =>
          if w.isEmpty then none else some (w.length + 2, .esc .lbrace :: w ++ [.esc .rbrace])
      | _ => none
  | _ => none

/-- A plain `{` whose run of brace-free tokens ends at an escaped `}`: `bracedWord` matches
it, taking the backslash of the escape into its group. -/
def escClosed : List Tok → Bool
  | .plain '{' _ :: rest =>
      match rest.dropWhile Tok.braceFree with
      | .esc .rbrace :: _ => true
      | _ => false
  | _ => false

/-- `helmOpen` on tokens. -/
def tokHelmOpen : List Tok → Option (Nat × List Tok)
  | .plain '{' _ :: .plain '{' _ :: rest =>
      some (if rest.head?.any Tok.isDash then 3 else 2, [.esc .lbrace, .esc .lbrace])
  | _ => none

/-- `helmClose` on tokens: a plain `-}}` or `}}` becomes two escaped `}`. -/
def tokHelmClose (ts : List Tok) : Option (Nat × List Tok) :=
  if "-\x7d\x7d".toList.map some <+: view ts then some (3, [.esc .rbrace, .esc .rbrace])
  else if "\x7d\x7d".toList.map some <+: view ts then some (2, [.esc .rbrace, .esc .rbrace])
  else none

/-! ### Each substitution simulated by its token form -/

theorem simulates_ltDigit (ts : List Tok) : Simulates ltDigit tokLtDigit ts := by
  intro b hb
  match ts with
  | [] => rfl
  | .esc e :: ts => simp [ltDigit, tokLtDigit]
  | .plain c h :: ts =>
      by_cases hc : c = '<'
      · subst hc
        match ts with
        | [] => rfl
        | .esc e :: ts =>
            have hd : isDigit '\\' = false := by decide
            simp [ltDigit, tokLtDigit, hd]
        | .plain d h' :: ts =>
            simp only [render_plain_cons, ltDigit, tokLtDigit, ne_eq, hb, not_false_eq_true,
              true_and]
            split <;> simp [Tok.render, render, Escapable.toChar]
      · simp [ltDigit, tokLtDigit, hc]

/-- The tokens under a run of plain characters render to it. -/
theorem render_take_of_prefix {p : List Char} :
    ∀ {ts : List Tok}, p.map some <+: view ts → render (ts.take p.length) = p := by
  induction p with
  | nil => simp
  | cons a p ih =>
      intro ts h
      match ts with
      | [] => simp at h
      | .plain c _ :: ts =>
          simp only [List.map_cons, view_cons, Tok.view, List.cons_prefix_cons,
            Option.some.injEq] at h
          simp [h.1, ih h.2]
      | .esc _ :: _ => simp [Tok.view, List.cons_prefix_cons] at h

theorem ltChan_eq (b : Option Char) (s : List Char) :
    ltChan b s = if "<-chan".toList <+: s ∧ b ≠ some '\\' then
      some (6, '\\' :: "<-chan".toList) else none := by
  unfold ltChan
  split
  · rename_i t
    have : "<-chan".toList <+: '<' :: '-' :: 'c' :: 'h' :: 'a' :: 'n' :: t := ⟨t, rfl⟩
    simp only [this, true_and]
  · rename_i hs
    rw [if_neg]
    rintro ⟨⟨t, rfl⟩, -⟩
    exact hs t rfl

theorem simulates_ltChan (ts : List Tok) : Simulates ltChan tokLtChan ts := by
  intro b hb
  have hiff := @prefix_render_iff "<-chan".toList (by decide) ts
  rw [ltChan_eq, tokLtChan]
  by_cases hp : "<-chan".toList.map some <+: view ts
  · have hr := render_take_of_prefix hp
    match ts, hr with
    | .plain c hc :: ts, hr =>
        change render (.plain c hc :: ts.take 5) = _ at hr
        rw [render_plain_cons] at hr
        obtain ⟨rfl, h5⟩ := List.cons.inj hr
        rw [if_pos ⟨hiff.2 hp, hb⟩, if_pos hp, Option.map_some']
        change some (6, _) = some ((render (.plain '<' hc :: ts.take 5)).length,
          render (.esc .lt :: ts.take 5))
        rw [render_plain_cons, render_esc_cons, h5]
        rfl
    | .esc _ :: _, hr => simp at hr
    | [], hr => simp at hr
  · rw [if_neg fun h => hp (hiff.1 h.1), if_neg hp]
    rfl

theorem simulates_ltDash (ts : List Tok) : Simulates ltDash tokLtDash ts := by
  intro b hb
  match ts with
  | [] => rfl
  | .esc e :: ts => simp [ltDash, tokLtDash]
  | .plain c h :: ts =>
      by_cases hc : c = '<'
      · subst hc
        match ts with
        | [] => rfl
        | .esc e :: ts => simp [ltDash, tokLtDash]
        | .plain d h' :: ts =>
            by_cases hd : d = '-'
            · subst hd
              have hhead : (render ts).head?.any Char.isAlpha = ts.head?.any Tok.isAlpha := by
                match ts with
                | [] => rfl
                | .plain x _ :: _ => rfl
                | .esc _ :: _ => rfl
              simp only [render_plain_cons, ltDash, tokLtDash, ne_eq, hb, not_false_eq_true,
                true_and, hhead]
              split <;> simp [Tok.render, render, Escapable.toChar]
            · simp [ltDash, tokLtDash, hd]
      · simp [ltDash, tokLtDash, hc]

theorem simulates_emptyBraces (ts : List Tok) : Simulates emptyBraces tokEmptyBraces ts := by
  intro b hb
  match ts with
  | [] => rfl
  | .esc e :: ts => simp [emptyBraces, tokEmptyBraces]
  | .plain c h :: ts =>
      by_cases hc : c = '{'
      · subst hc
        match ts with
        | [] => rfl
        | .esc e :: ts => simp [emptyBraces, tokEmptyBraces]
        | .plain d h' :: ts =>
            by_cases hd : d = '}'
            · subst hd
              simp [emptyBraces, tokEmptyBraces, hb, Tok.render, render, Escapable.toChar]
            · simp [emptyBraces, tokEmptyBraces, hd]
      · simp [emptyBraces, tokEmptyBraces, hc]

theorem simulates_helmOpen (ts : List Tok) : Simulates helmOpen tokHelmOpen ts := by
  intro b hb
  match ts with
  | [] => rfl
  | .esc e :: ts => simp [helmOpen, tokHelmOpen]
  | .plain c h :: ts =>
      by_cases hc : c = '{'
      · subst hc
        match ts with
        | [] => rfl
        | .esc e :: ts => simp [helmOpen, tokHelmOpen]
        | .plain d h' :: ts =>
            by_cases hd : d = '{'
            · subst hd
              match ts with
              | [] => simp [helmOpen, tokHelmOpen, hb, Tok.render, render, Escapable.toChar]
              | .esc e :: ts =>
                  simp [helmOpen, tokHelmOpen, hb, Tok.isDash, Tok.view, Tok.render, render,
                    Escapable.toChar]
              | .plain x hx :: ts =>
                  by_cases hx' : x = '-' <;>
                    simp [helmOpen, tokHelmOpen, hb, hx', Tok.isDash, Tok.view, Tok.render, render,
                      Escapable.toChar]
            · simp [helmOpen, tokHelmOpen, hd]
      · simp [helmOpen, tokHelmOpen, hc]

theorem helmClose_eq (b : Option Char) (s : List Char) :
    helmClose b s = if "-\x7d\x7d".toList <+: s then some (3, ['\\', '}', '\\', '}'])
      else if "\x7d\x7d".toList <+: s ∧ b ≠ some '\\' then some (2, ['\\', '}', '\\', '}'])
      else none := by
  unfold helmClose
  split
  · rename_i t
    have : "-\x7d\x7d".toList <+: '-' :: '}' :: '}' :: t := ⟨t, rfl⟩
    simp only [this, if_true]
  · rename_i _ t
    have h1 : ¬ "-\x7d\x7d".toList <+: '}' :: '}' :: t := by simp [List.cons_prefix_cons]
    have h2 : "\x7d\x7d".toList <+: '}' :: '}' :: t := ⟨t, rfl⟩
    simp only [h1, h2, if_false, true_and]
  · rename_i h1 h2
    rw [if_neg, if_neg]
    · rintro ⟨⟨t, rfl⟩, -⟩
      exact h2 t rfl
    · rintro ⟨t, rfl⟩
      exact h1 t rfl

theorem simulates_helmClose (ts : List Tok) : Simulates helmClose tokHelmClose ts := by
  intro b hb
  have h3 := @prefix_render_iff "-\x7d\x7d".toList (by decide) ts
  have h2 := @prefix_render_iff "\x7d\x7d".toList (by decide) ts
  rw [helmClose_eq, tokHelmClose]
  by_cases hp3 : "-\x7d\x7d".toList.map some <+: view ts
  · rw [if_pos (h3.2 hp3), if_pos hp3, Option.map_some']
    have : render (ts.take 3) = "-\x7d\x7d".toList := render_take_of_prefix hp3
    simp [this, Escapable.toChar]
  · rw [if_neg fun h => hp3 (h3.1 h), if_neg hp3]
    by_cases hp2 : "\x7d\x7d".toList.map some <+: view ts
    · rw [if_pos ⟨h2.2 hp2, hb⟩, if_pos hp2, Option.map_some']
      have : render (ts.take 2) = "\x7d\x7d".toList := render_take_of_prefix hp2
      simp [this, Escapable.toChar]
    · rw [if_neg fun h => hp2 (h2.1 h.1), if_neg hp2]
      rfl

/-- A run of brace-free tokens renders to brace-free text. -/
theorem notBrace_of_mem_render {w : List Tok} (hw : ∀ t ∈ w, t.braceFree = true) :
    ∀ c ∈ render w, notBrace c = true := by
  induction w with
  | nil => simp
  | cons t w ih =>
      simp only [List.forall_mem_cons] at hw
      intro c hc
      cases t with
      | plain d _ =>
          rcases List.mem_cons.1 hc with rfl | hc
          · exact hw.1
          · exact ih hw.2 c hc
      | esc e =>
          have he : e = .lt := by simpa [Tok.braceFree] using hw.1
          subst he
          rcases List.mem_cons.1 hc with rfl | hc
          · rfl
          rcases List.mem_cons.1 hc with rfl | hc
          · rfl
          · exact ih hw.2 c hc

/-- A brace-free run ends at a brace. -/
theorem braceFree_of_dropWhile_eq_cons {ts x : List Tok} {t : Tok}
    (h : ts.dropWhile Tok.braceFree = t :: x) : t.braceFree = false := by
  simpa [h] using List.head_dropWhile_not Tok.braceFree ts (by simp [h])

/-- Away from `escClosed`, `bracedWord` is simulated by its token form. -/
theorem simulates_bracedWord {ts : List Tok} (h : escClosed ts = false) :
    Simulates bracedWord tokBracedWord ts := by
  intro b hb
  match ts, h with
  | [], _ => rfl
  | .esc e :: ts, _ => simp [bracedWord, tokBracedWord]
  | .plain c hc :: rest, h =>
      by_cases hc' : c = '{'
      · subst hc'
        have hsplit := List.takeWhile_append_dropWhile Tok.braceFree rest
        have hw : ∀ c ∈ render (rest.takeWhile Tok.braceFree), notBrace c = true :=
          notBrace_of_mem_render fun t ht => List.mem_takeWhile_imp ht
        have hr : render rest = render (rest.takeWhile Tok.braceFree) ++
            render (rest.dropWhile Tok.braceFree) := by
          rw [← render_append, hsplit]
        simp only [escClosed] at h
        simp only [render_plain_cons, bracedWord, tokBracedWord, hr,
          List.takeWhile_append_of_pos hw]
        generalize rest.takeWhile Tok.braceFree = w at hsplit hw ⊢
        cases hx : rest.dropWhile Tok.braceFree with
        | nil => simp
        | cons t x =>
            have ht := braceFree_of_dropWhile_eq_cons hx
            rw [hx] at h hsplit
            cases t with
            | plain d hdb =>
                have hd' : notBrace d = false := ht
                by_cases hdd : d = '}'
                · subst hdd hsplit
                  by_cases hwn : w = []
                  · subst hwn
                    simp [hd']
                  · have hrw : render w ≠ [] := by simpa using hwn
                    have htw : w.take (w.length + 1) = w := List.take_of_length_le (by omega)
                    simp [hb, hrw, hwn, hd', htw, List.take_append_eq_append_take,
                      Escapable.toChar]
                · simp [hdd, hd']
            | esc e =>
                cases e with
                | lt => simp [Tok.braceFree] at ht
                | rbrace => simp at h
                | lbrace => simp [notBrace, Escapable.toChar]
      · simp [bracedWord, tokBracedWord, hc']

/-! ### Lookbehinds and the shape of every match -/

theorem guarded_ltDigit : Guarded ltDigit := by
  intro e s
  cases e <;> cases s <;> simp [ltDigit, Escapable.toChar]

theorem guarded_ltChan : Guarded ltChan := by
  intro e s
  simp [ltChan_eq]

theorem guarded_ltDash : Guarded ltDash := by
  intro e s
  unfold ltDash
  split <;> simp_all

theorem guarded_emptyBraces : Guarded emptyBraces := by
  intro e s
  unfold emptyBraces
  split <;> simp_all

theorem guarded_bracedWord : Guarded bracedWord := by
  intro e s
  cases e <;> simp [bracedWord, Escapable.toChar]

theorem guarded_helmOpen : Guarded helmOpen := by
  intro e s
  unfold helmOpen
  split <;> simp_all

theorem guarded_helmClose : Guarded helmClose := by
  intro e s
  cases e <;> simp [helmClose_eq, Escapable.toChar, List.cons_prefix_cons]

/-- Every substitution matches at a `<`, a `{` or a `}` (the three `str.replace` calls at a
backslash before one), so a line with none of them is left as it is. -/
theorem escapeLine_of_not_mem {l : List Char} (hlt : '<' ∉ l) (hob : '{' ∉ l) (hcb : '}' ∉ l) :
    escapeLine l = l := by
  have hr : ∀ {c : Char} {new : List Char}, c ∉ l → replace ['\\', '\\', c] new l = l :=
    fun hc => replace_of_not_infix fun h => hc (h.subset (by simp))
  have h1 : sub ltDigit l = l :=
    sub_of_not_mem (fun b u h => by unfold ltDigit at h; split at h <;> simp_all) hlt
  have h2 : sub ltChan l = l := sub_of_not_mem (fun b u h => by
    rw [ltChan_eq] at h
    split at h
    · next hc => exact hc.1.subset (by decide)
    · exact absurd rfl h) hlt
  have h3 : sub ltDash l = l :=
    sub_of_not_mem (fun b u h => by unfold ltDash at h; split at h <;> simp_all) hlt
  have h4 : sub emptyBraces l = l :=
    sub_of_not_mem (fun b u h => by unfold emptyBraces at h; split at h <;> simp_all) hob
  have h5 : sub bracedWord l = l :=
    sub_of_not_mem (fun b u h => by unfold bracedWord at h; split at h <;> simp_all) hob
  have h6 : sub helmOpen l = l :=
    sub_of_not_mem (fun b u h => by unfold helmOpen at h; split at h <;> simp_all) hob
  have h7 : sub helmClose l = l := sub_of_not_mem (fun b u h => by
    rw [helmClose_eq] at h
    split at h
    · next hc => exact hc.subset (by decide)
    · split at h
      · next hc => exact hc.1.subset (by decide)
      · exact absurd rfl h) hcb
  simp only [escapeLine, hr hob, hr hcb, hr hlt, h1, h2, h3, h4, h5, h6, h7, ite_self]

/-- No substitution writes a newline: a line stays one line. -/
theorem newline_free_escapeLine {l : List Char} (h : '\n' ∉ l) : '\n' ∉ escapeLine l := by
  have hs : ∀ {m : Pattern} {s : List Char},
      (∀ b u k r, m b u = some (k, r) → ∀ c ∈ r, c ≠ '\n' ∨ c ∈ u) → '\n' ∉ s → '\n' ∉ sub m s :=
    fun hm hn hc => (mem_reSub hm 0 none _ _ hc).elim (· rfl) hn
  have hk : ∀ {m : Pattern} {s : List Char}, (∀ b u k r, m b u = some (k, r) → '\n' ∉ r) →
      '\n' ∉ s → '\n' ∉ sub m s :=
    fun hm => hs fun b u k r h c hc => .inl fun e => hm b u k r h (e ▸ hc)
  have hr : ∀ {old new s : List Char}, '\n' ∉ new → '\n' ∉ s → '\n' ∉ replace old new s :=
    fun hn => hk fun b u k r h => by
      unfold literal at h
      split at h <;> cases h
      exact hn
  have h1 : ∀ {s}, '\n' ∉ s → '\n' ∉ sub ltDigit s := hs fun b u k r h c hc => by
    unfold ltDigit at h
    split at h
    · split at h <;> cases h
      simp only [List.mem_cons, List.not_mem_nil, or_false] at hc
      rcases hc with rfl | rfl | rfl <;> simp
    · cases h
  have h2 : ∀ {s}, '\n' ∉ s → '\n' ∉ sub ltChan s := hk fun b u k r h => by
    rw [ltChan_eq] at h
    split at h <;> cases h
    decide
  have h3 : ∀ {s}, '\n' ∉ s → '\n' ∉ sub ltDash s := hk fun b u k r h => by
    unfold ltDash at h
    split at h <;> (try split at h) <;> cases h
    decide
  have h4 : ∀ {s}, '\n' ∉ s → '\n' ∉ sub emptyBraces s := hk fun b u k r h => by
    unfold emptyBraces at h
    split at h <;> (try split at h) <;> cases h
    decide
  have h5 : ∀ {s}, '\n' ∉ s → '\n' ∉ sub bracedWord s := hs fun b u k r h c hc => by
    unfold bracedWord at h
    split at h
    · dsimp only at h
      split at h <;> cases h
      simp only [List.mem_cons, List.mem_append, List.not_mem_nil, or_false] at hc
      rcases hc with (rfl | rfl | hc) | rfl | rfl
      all_goals first
        | exact .inl (by decide)
        | exact .inr (List.mem_cons_of_mem _ ((List.takeWhile_sublist _).subset hc))
    · cases h
  have h6 : ∀ {s}, '\n' ∉ s → '\n' ∉ sub helmOpen s := hk fun b u k r h => by
    unfold helmOpen at h
    split at h <;> (try split at h) <;> cases h
    decide
  have h7 : ∀ {s}, '\n' ∉ s → '\n' ∉ sub helmClose s := hk fun b u k r h => by
    rw [helmClose_eq] at h
    split at h <;> (try split at h) <;> cases h <;> decide
  have hite : ∀ {p : Prop} [Decidable p] {t s : List Char}, '\n' ∉ t → '\n' ∉ s →
      '\n' ∉ if p then t else s := fun ht hs => by split <;> assumption
  -- each step of the line is one of the substitutions, or its guard skips it
  dsimp only [escapeLine]
  repeat
    first
      | with_reducible exact h
      | with_reducible apply hite
      | with_reducible apply h7 | with_reducible apply h6 | with_reducible apply h5
      | with_reducible apply h4 | with_reducible apply h3 | with_reducible apply h2
      | with_reducible apply h1 | with_reducible refine hr ?_ ?_
      | decide

/-- The view of the first `p.length` tokens under a run of plain characters `p`. -/
theorem view_take_length_eq {p : List Char} {ts : List Tok} (h : p.map some <+: view ts) :
    view (ts.take p.length) = p.map some := by
  have := (List.prefix_iff_eq_take.1 h).symm
  simpa [view, List.map_take] using this

/-- Tokens whose view is a run of plain characters are those characters' plain tokens. -/
theorem eq_plains_of_view {p : List Char} :
    ∀ {ts : List Tok}, view ts = p.map some → ∃ hp, ts = plains p hp := by
  induction p with
  | nil =>
      intro ts h
      refine ⟨List.not_mem_nil _, ?_⟩
      cases ts with
      | nil => rfl
      | cons t ts => simp at h
  | cons c p ih =>
      intro ts h
      match ts with
      | .plain d hd :: ts =>
          simp only [view_cons, Tok.view, List.map_cons, List.cons.injEq, Option.some.injEq] at h
          obtain ⟨rfl, hv⟩ := h
          obtain ⟨hp, rfl⟩ := ih hv
          exact ⟨fun hm => (List.mem_cons.1 hm).elim (fun e => hd e.symm) hp, rfl⟩
      | .esc _ :: _ => simp [Tok.view] at h
      | [] => simp at h

theorem escaping_tokLtDigit : Escaping tokLtDigit where
  esc_none _ _ := rfl
  escapes ts k r h := by
    unfold tokLtDigit at h
    split at h
    · split at h
      · cases h
        exact ⟨by decide, .escape .lt _ (.refl _)⟩
      · cases h
    · cases h

theorem escaping_tokLtChan : Escaping tokLtChan where
  esc_none _ _ := by simp [tokLtChan, Tok.view]
  escapes ts k r h := by
    unfold tokLtChan at h
    split at h
    · cases h
      rename_i hp
      obtain ⟨_, hts⟩ := eq_plains_of_view (view_take_length_eq hp)
      change List.take 6 ts = _ at hts
      rw [hts]
      exact ⟨by decide, .escape .lt _ (.refl _)⟩
    · cases h

theorem escaping_tokLtDash : Escaping tokLtDash where
  esc_none _ _ := rfl
  escapes ts k r h := by
    unfold tokLtDash at h
    split at h
    · split at h
      · cases h
        exact ⟨by decide, .escape .lt _ (.refl _)⟩
      · cases h
    · cases h

theorem escaping_tokEmptyBraces : Escaping tokEmptyBraces where
  esc_none _ _ := rfl
  escapes ts k r h := by
    unfold tokEmptyBraces at h
    split at h
    · cases h
      exact ⟨by decide, .escape .lbrace _ (.escape .rbrace _ .nil)⟩
    · cases h

theorem escaping_tokBracedWord : Escaping tokBracedWord where
  esc_none _ _ := rfl
  escapes ts k r h := by
    unfold tokBracedWord at h
    split at h
    · rename_i rest
      dsimp only at h
      split at h
      · rename_i x hx
        split at h
        · cases h
        · cases h
          refine ⟨by omega, ?_⟩
          have hsplit := List.takeWhile_append_dropWhile Tok.braceFree rest
          rw [hx] at hsplit
          generalize rest.takeWhile Tok.braceFree = w at hsplit ⊢
          subst hsplit
          have htw : w.take (w.length + 1) = w := List.take_of_length_le (by omega)
          simp only [List.take_succ_cons, List.take_append_eq_append_take, htw,
            Nat.add_sub_cancel_left, List.take_zero]
          exact .escape .lbrace _ ((Escapes.refl _).append (.escape .rbrace _ .nil))
      · cases h
    · cases h

theorem escaping_tokHelmOpen : Escaping tokHelmOpen where
  esc_none _ _ := rfl
  escapes ts k r h := by
    unfold tokHelmOpen at h
    split at h
    · cases h
      rename_i rest
      split
      · match rest, ‹rest.head?.any Tok.isDash = true› with
        | .plain c hc :: rest, hd =>
            have : c = '-' := by simpa [Tok.isDash, Tok.view] using hd
            subst this
            exact ⟨by decide, .escape .lbrace _ (.dashAfter _ _ .nil)⟩
        | .esc _ :: _, hd => simp [Tok.isDash, Tok.view] at hd
      · exact ⟨by decide, .escape .lbrace _ (.escape .lbrace _ .nil)⟩
    · cases h

theorem escaping_tokHelmClose : Escaping tokHelmClose where
  esc_none _ _ := by simp [tokHelmClose, Tok.view, List.cons_prefix_cons]
  escapes ts k r h := by
    unfold tokHelmClose at h
    split at h
    · cases h
      rename_i hp
      obtain ⟨_, hts⟩ := eq_plains_of_view (view_take_length_eq hp)
      change List.take 3 ts = _ at hts
      rw [hts]
      exact ⟨by decide, .dashBefore _ _ (.escape .rbrace _ .nil)⟩
    · split at h
      · cases h
        rename_i hp
        obtain ⟨_, hts⟩ := eq_plains_of_view (view_take_length_eq hp)
        change List.take 2 ts = _ at hts
        rw [hts]
        exact ⟨by decide, .escape .rbrace _ (.escape .rbrace _ .nil)⟩
      · cases h

/-! ### One line of the pass, on tokens -/

/-- The three substitutions for `<`. -/
def escapeLts (ts : List Tok) : List Tok :=
  reSubTok tokLtDash 0 (reSubTok tokLtChan 0 (reSubTok tokLtDigit 0 ts))

/-- The line up to the empty-braces substitution, made when the line has no backtick. -/
def escapeBraces (ts : List Tok) : List Tok :=
  let ts := escapeLts ts
  if some '`' ∉ view ts then reSubTok tokEmptyBraces 0 ts else ts

/-- The line up to the braced-word substitution, made on mermaid-like lines (with `-->`). -/
def escapeMermaid (ts : List Tok) : List Tok :=
  let ts := escapeBraces ts
  if "-->".toList.map some <:+: view ts then reSubTok tokBracedWord 0 ts else ts

/-- `escapeLine` on tokens: the Helm substitutions close it when the line has no backtick. -/
def escapeTokens (ts : List Tok) : List Tok :=
  let ts := escapeMermaid ts
  if some '`' ∉ view ts then reSubTok tokHelmClose 0 (reSubTok tokHelmOpen 0 ts) else ts

private theorem sub_render {mc : Pattern} {mt : List Tok → Option (Nat × List Tok)}
    (hg : Guarded mc) (he : Escaping mt) (ts : List Tok) (hs : ∀ us, us <:+ ts → Simulates mc mt us) :
    sub mc (render ts) = render (reSubTok mt 0 ts) :=
  reSub_render hg he (by simp) hs

/-- `escapeLine` on rendered tokens is `escapeTokens`, rendered, unless the braced-word
substitution runs and meets `escClosed`. -/
theorem escapeLine_render {ts : List Tok}
    (h : "-->".toList.map some <:+: view (escapeBraces ts) →
      ∀ us, us <:+ escapeBraces ts → escClosed us = false) :
    escapeLine (render ts) = render (escapeTokens ts) := by
  have hN : ∀ c, replace ['\\', '\\', c] ['\\', c] (render ts) = render ts := fun c =>
    replace_of_not_infix fun hi =>
      not_infix_backslash_backslash ts ((List.prefix_append ['\\', '\\'] [c]).isInfix.trans hi)
  have htick : ∀ us : List Tok, '`' ∈ render us ↔ some '`' ∈ view us := fun _ =>
    mem_render_iff (by decide)
  have harrow : ∀ us : List Tok, "-->".toList <:+: render us ↔ "-->".toList.map some <:+: view us :=
    fun _ => infix_render_iff (by decide)
  unfold escapeLine escapeTokens
  dsimp only
  rw [hN, hN, hN, sub_render guarded_ltDigit escaping_tokLtDigit _ fun us _ => simulates_ltDigit us,
    sub_render guarded_ltChan escaping_tokLtChan _ fun us _ => simulates_ltChan us,
    sub_render guarded_ltDash escaping_tokLtDash _ fun us _ => simulates_ltDash us]
  have h4 : (if '`' ∉ render (escapeLts ts) then sub emptyBraces (render (escapeLts ts))
      else render (escapeLts ts)) = render (escapeBraces ts) := by
    unfold escapeBraces
    dsimp only
    by_cases ht : some '`' ∈ view (escapeLts ts)
    · rw [if_neg (not_not.2 ((htick _).2 ht)), if_neg (not_not.2 ht)]
    · rw [if_pos fun h' => ht ((htick _).1 h'), if_pos ht]
      exact sub_render guarded_emptyBraces escaping_tokEmptyBraces _ fun us _ =>
        simulates_emptyBraces us
  rw [show reSubTok tokLtDash 0 (reSubTok tokLtChan 0 (reSubTok tokLtDigit 0 ts)) =
    escapeLts ts from rfl, h4]
  have h5 : (if "-->".toList <:+: render (escapeBraces ts) then
      sub bracedWord (render (escapeBraces ts)) else render (escapeBraces ts)) =
      render (escapeMermaid ts) := by
    unfold escapeMermaid
    dsimp only
    by_cases ha : "-->".toList.map some <:+: view (escapeBraces ts)
    · rw [if_pos ((harrow _).2 ha), if_pos ha]
      exact sub_render guarded_bracedWord escaping_tokBracedWord _ fun us hu =>
        simulates_bracedWord (h ha us hu)
    · rw [if_neg fun h' => ha ((harrow _).1 h'), if_neg ha]
  rw [h5]
  by_cases ht : some '`' ∈ view (escapeMermaid ts)
  · rw [if_neg (not_not.2 ((htick _).2 ht)), if_neg (not_not.2 ht)]
  · rw [if_pos fun h' => ht ((htick _).1 h'), if_pos ht,
      sub_render guarded_helmOpen escaping_tokHelmOpen _ fun us _ => simulates_helmOpen us,
      sub_render guarded_helmClose escaping_tokHelmClose _ fun us _ => simulates_helmClose us]

end DocFix.Mdx
