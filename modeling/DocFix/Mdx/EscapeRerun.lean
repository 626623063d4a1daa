import DocFix.Mdx.EscapeTokens

/-!
A second run of `escape_jsx_patterns` over a line with no backslash changes nothing. On
tokens the first run leaves no place where a substitution of the pass matches: each
substitution removes its own matches, and the later ones, which only escape characters and
delete dashes beside braces, bring none back. The braced-word substitution is the delicate
one: a dash that `-}}` deletes can put an escaped `}` right after a plain `{`, which the
regex would take; the empty-braces substitution, run before, has removed every such `{`.
-/

namespace DocFix.Mdx

/-- No suffix of `ts` is a match of `m`. -/
def Quiet (m : List Tok → Option (Nat × List Tok)) (ts : List Tok) : Prop :=
  ∀ us, us <:+ ts → m us = none

theorem Quiet.reSubTok_eq {m : List Tok → Option (Nat × List Tok)} {ts : List Tok}
    (h : Quiet m ts) : reSubTok m 0 ts = ts :=
  reSubTok_of_none h

theorem quiet_of_avoids {m : List Tok → Option (Nat × List Tok)} {Q : List (Option Char) → Prop}
    (hm : ∀ us, m us ≠ none → ∃ u, u <:+ view us ∧ Q u) {ts : List Tok}
    (h : Avoids Q (view ts)) : Quiet m ts := by
  intro us hu
  by_contra hne
  obtain ⟨u, hu', hq⟩ := hm us hne
  exact h u (hu'.trans (hu.map Tok.view)) hq

/-! ### The patterns on views -/

/-- The plain run `p` starts the view. -/
def PlainAt (p : List Char) (v : List (Option Char)) : Prop := p.map some <+: v

theorem anchored_plainAt (a : Char) (p : List Char) : Anchored a (PlainAt (a :: p)) where
  head _ := by rintro ⟨t, rfl⟩; rfl
  reflect h hq := h.prefix_map_some hq

/-- A plain `<` and a digit start the view. -/
def DigitAt (v : List (Option Char)) : Prop := ∃ d, isDigit d = true ∧ PlainAt ['<', d] v

theorem anchored_digitAt : Anchored '<' DigitAt where
  head _ := by rintro ⟨d, -, t, rfl⟩; rfl
  reflect h := by
    rintro ⟨d, hd, hp⟩
    exact ⟨d, hd, h.prefix_map_some hp⟩

/-- A plain `<-` not followed by a plain letter starts the view. -/
def DashAt (v : List (Option Char)) : Prop :=
  ∃ rest, v = some '<' :: some '-' :: rest ∧ ∀ c, rest.head? = some (some c) → c.isAlpha = false

theorem Coarser.head_of_isAlpha {v' v : List (Option Char)} (h : Coarser v' v) {c : Char}
    (hc : v.head? = some (some c)) (hα : c.isAlpha = true) : v'.head? = some (some c) := by
  cases h with
  | nil => cases hc
  | keep x _ => exact hc
  | escape d hd _ =>
      obtain rfl : d = c := by simpa using hc
      rcases hd with rfl | rfl | rfl <;> cases hα
  | dashAfter _ | dashBefore _ =>
      obtain rfl : _ = c := by simpa using hc
      cases hα

theorem anchored_dashAt : Anchored '<' DashAt where
  head _ := by rintro ⟨rest, rfl, -⟩; rfl
  reflect h := by
    rintro ⟨rest', rfl, hr⟩
    cases h with
    | keep _ h =>
        cases h with
        | keep _ h =>
            refine ⟨_, rfl, fun c hc => ?_⟩
            cases hα : c.isAlpha
            · rfl
            · simpa [hα] using hr c (h.head_of_isAlpha hc hα)

/-! ### Where each substitution matches, and what it puts back -/

theorem tokLtDigit_ne_none_iff {ts : List Tok} : tokLtDigit ts ≠ none ↔ DigitAt (view ts) := by
  constructor
  · intro h
    unfold tokLtDigit at h
    split at h
    · next _ d _ _ =>
        refine ⟨d, ?_, List.prefix_append _ _⟩
        by_contra hd
        simp [hd] at h
    · exact absurd rfl h
  · rintro ⟨d, hd, hp⟩
    match ts, hp with
    | .plain c _ :: .plain e _ :: ts, hp =>
        simp only [PlainAt, List.map_cons, List.map_nil, view_cons, Tok.view,
          List.cons_prefix_cons, Option.some.injEq] at hp
        obtain ⟨rfl, rfl, -⟩ := hp
        simp [tokLtDigit, hd]
    | [], hp | [_], hp | .esc _ :: _, hp | .plain _ _ :: .esc _ :: _, hp =>
        simp [PlainAt, Tok.view, List.cons_prefix_cons] at hp

theorem tokLtDigit_lt_not_mem {ts r : List Tok} {k : Nat} (h : tokLtDigit ts = some (k, r)) :
    some '<' ∉ view r := by
  unfold tokLtDigit at h
  split at h
  · split at h
    · cases h
      rename_i d _ _ hd
      have : d ≠ '<' := by rintro rfl; cases hd
      simp [Tok.view, Ne.symm this]
    · cases h
  · cases h

theorem tokLtChan_ne_none_iff {ts : List Tok} :
    tokLtChan ts ≠ none ↔ PlainAt "<-chan".toList (view ts) := by
  unfold tokLtChan PlainAt
  split <;> simp_all

theorem tokLtChan_lt_not_mem {ts r : List Tok} {k : Nat} (h : tokLtChan ts = some (k, r)) :
    some '<' ∉ view r := by
  unfold tokLtChan at h
  split at h
  · cases h
    rename_i hp
    have hv := view_take_length_eq hp
    match hts : ts.take 6, hv with
    | _ :: ts', hv =>
        simp only [view_cons, List.map_cons] at hv
        simp [(List.cons.inj hv).2, Tok.view]
  · cases h

theorem tokLtDash_ne_none_iff {ts : List Tok} : tokLtDash ts ≠ none ↔ DashAt (view ts) := by
  constructor
  · intro h
    unfold tokLtDash at h
    split at h
    · next _ _ rest =>
        refine ⟨view rest, rfl, fun c hc => ?_⟩
        match rest, hc with
        | .plain x _ :: _, hc =>
            obtain rfl : x = c := by simpa [Tok.view] using hc
            by_contra hx
            simp [Tok.isAlpha, hx] at h
    · exact absurd rfl h
  · rintro ⟨rest, hv, hr⟩
    match ts, hv with
    | .plain c _ :: .plain d _ :: ts, hv =>
        simp only [view_cons, Tok.view, List.cons.injEq, Option.some.injEq] at hv
        obtain ⟨rfl, rfl, hv⟩ := hv
        rw [← hv] at hr
        have : ts.head?.any Tok.isAlpha = false := by
          match ts, hr with
          | [], _ => rfl
          | .esc _ :: _, _ => rfl
          | .plain x _ :: _, hr => simpa [Tok.isAlpha] using hr x rfl
        simp [tokLtDash, this]
    | [], hv | [_], hv | .esc _ :: _, hv | .plain _ _ :: .esc _ :: _, hv =>
        simp [Tok.view] at hv

theorem plainAt_view_iff {p : List Char} {ts : List Tok} :
    PlainAt p (view ts) ↔ ∃ hp rest, ts = plains p hp ++ rest := by
  induction p generalizing ts with
  | nil => exact ⟨fun _ => ⟨by simp, ts, rfl⟩, fun _ => List.nil_prefix⟩
  | cons a p ih =>
      constructor
      · intro h
        match ts, h with
        | .plain c hc :: ts, h =>
            simp only [PlainAt, List.map_cons, view_cons, Tok.view, List.cons_prefix_cons,
              Option.some.injEq] at h
            obtain ⟨rfl, h⟩ := h
            obtain ⟨hp, rest, rfl⟩ := ih.1 h
            exact ⟨List.not_mem_cons_of_ne_of_not_mem hc.symm hp, rest, rfl⟩
        | [], h | .esc _ :: _, h => simp [PlainAt, Tok.view, List.cons_prefix_cons] at h
      · rintro ⟨hp, rest, rfl⟩
        simp [PlainAt, plains, Tok.view]

theorem tokEmptyBraces_ne_none_iff {ts : List Tok} :
    tokEmptyBraces ts ≠ none ↔ PlainAt ['{', '}'] (view ts) := by
  constructor
  · intro h
    unfold tokEmptyBraces at h
    split at h
    · exact List.prefix_append _ _
    · exact absurd rfl h
  · intro hp
    obtain ⟨_, rest, rfl⟩ := plainAt_view_iff.1 hp
    simp [plains, tokEmptyBraces]

theorem tokHelmOpen_ne_none_iff {ts : List Tok} :
    tokHelmOpen ts ≠ none ↔ PlainAt ['{', '{'] (view ts) := by
  constructor
  · intro h
    unfold tokHelmOpen at h
    split at h
    · exact List.prefix_append _ _
    · exact absurd rfl h
  · intro hp
    obtain ⟨_, rest, rfl⟩ := plainAt_view_iff.1 hp
    simp [plains, tokHelmOpen]

theorem tokHelmClose_ne_none {ts : List Tok} (h : tokHelmClose ts ≠ none) :
    ∃ u, u <:+ view ts ∧ PlainAt ['}', '}'] u := by
  unfold tokHelmClose at h
  split at h
  · obtain ⟨t, ht⟩ := ‹"-\x7d\x7d".toList.map some <+: view ts›
    exact ⟨_ ++ t, ⟨[some '-'], ht⟩, List.prefix_append _ _⟩
  · split at h
    · exact ⟨view ts, List.suffix_refl _, ‹_›⟩
    · exact absurd rfl h

theorem tokHelmClose_of_plainAt {ts : List Tok} (h : PlainAt ['}', '}'] (view ts)) :
    tokHelmClose ts ≠ none := by
  unfold tokHelmClose
  split
  · simp
  · rw [if_pos (show "\x7d\x7d".toList.map some <+: view ts from h)]
    simp

theorem view_eq_of_tokEmptyBraces {ts r : List Tok} {k : Nat}
    (h : tokEmptyBraces ts = some (k, r)) : view r = [none, none] := by
  unfold tokEmptyBraces at h
  split at h <;> cases h
  rfl

theorem view_eq_of_tokHelmOpen {ts r : List Tok} {k : Nat}
    (h : tokHelmOpen ts = some (k, r)) : view r = [none, none] := by
  unfold tokHelmOpen at h
  split at h <;> cases h
  rfl

theorem tokHelmClose_eq_some {ts r : List Tok} {k : Nat} (h : tokHelmClose ts = some (k, r)) :
    r = [.esc .rbrace, .esc .rbrace] ∧ (PlainAt ['}'] (view ts) ∨ PlainAt ['-', '}'] (view ts)) := by
  unfold tokHelmClose at h
  split at h
  · cases h
    exact ⟨rfl, .inr ((List.prefix_append _ [some '}']).trans ‹_›)⟩
  · split at h <;> cases h
    exact ⟨rfl, .inl ((List.prefix_append _ [some '}']).trans ‹_›)⟩

theorem view_eq_of_tokHelmClose {ts r : List Tok} {k : Nat}
    (h : tokHelmClose ts = some (k, r)) : view r = [none, none] := by
  rw [(tokHelmClose_eq_some h).1]
  rfl

/-! ### What the first run leaves, stage by stage -/

theorem Coarser.tick_mem_iff {v' v : List (Option Char)} (h : Coarser v' v) :
    some '`' ∈ v' ↔ some '`' ∈ v :=
  h.mem_iff (by decide)

section FirstRun

variable (ts : List Tok)

theorem escapes_escapeLts : Escapes (escapeLts ts) ts :=
  ((escapes_reSubTok escaping_tokLtDash.escapes _).trans
    (escapes_reSubTok escaping_tokLtChan.escapes _)).trans
    (escapes_reSubTok escaping_tokLtDigit.escapes _)

theorem escapes_escapeBraces : Escapes (escapeBraces ts) (escapeLts ts) := by
  unfold escapeBraces
  dsimp only
  split
  · exact escapes_reSubTok escaping_tokEmptyBraces.escapes _
  · exact .refl _

theorem escapes_escapeMermaid : Escapes (escapeMermaid ts) (escapeBraces ts) := by
  unfold escapeMermaid
  dsimp only
  split
  · exact escapes_reSubTok escaping_tokBracedWord.escapes _
  · exact .refl _

theorem escapes_escapeTokens : Escapes (escapeTokens ts) (escapeMermaid ts) := by
  unfold escapeTokens
  dsimp only
  split
  · exact (escapes_reSubTok escaping_tokHelmClose.escapes _).trans
      (escapes_reSubTok escaping_tokHelmOpen.escapes _)
  · exact .refl _

theorem escapes_escapeTokens_escapeLts : Escapes (escapeTokens ts) (escapeLts ts) :=
  ((escapes_escapeTokens ts).trans (escapes_escapeMermaid ts)).trans (escapes_escapeBraces ts)

theorem avoids_escapeLts :
    Avoids DigitAt (view (escapeLts ts)) ∧ Avoids (PlainAt "<-chan".toList) (view (escapeLts ts)) ∧
      Avoids DashAt (view (escapeLts ts)) :=
  ⟨anchored_digitAt.avoids ((coarser_reSubTok escaping_tokLtDash _).trans
      (coarser_reSubTok escaping_tokLtChan _))
      (anchored_digitAt.avoids_reSubTok escaping_tokLtDigit (fun _ _ _ => tokLtDigit_lt_not_mem)
        (fun _ h => tokLtDigit_ne_none_iff.2 h) ts),
    (anchored_plainAt '<' "-chan".toList).avoids (coarser_reSubTok escaping_tokLtDash _)
      ((anchored_plainAt '<' "-chan".toList).avoids_reSubTok escaping_tokLtChan
        (fun _ _ _ => tokLtChan_lt_not_mem) (fun _ h => tokLtChan_ne_none_iff.2 h) _),
    anchored_dashAt.avoids_reSubTok escaping_tokLtDash
      (fun _ _ _ h => by
        unfold tokLtDash at h
        split at h
        · split at h <;> cases h
          simp [Tok.view]
        · cases h)
      (fun _ h => tokLtDash_ne_none_iff.2 h) _⟩

theorem avoids_escapeBraces (h : some '`' ∉ view (escapeLts ts)) :
    Avoids (PlainAt ['{', '}']) (view (escapeBraces ts)) := by
  unfold escapeBraces
  rw [if_pos h]
  exact (anchored_plainAt '{' ['}']).avoids_reSubTok escaping_tokEmptyBraces
    (fun _ _ _ h => by simp [view_eq_of_tokEmptyBraces h])
    (fun _ h => tokEmptyBraces_ne_none_iff.2 h) _

theorem avoids_escapeTokens (h : some '`' ∉ view (escapeMermaid ts)) :
    Avoids (PlainAt ['{', '{']) (view (escapeTokens ts)) ∧
      Avoids (PlainAt ['}', '}']) (view (escapeTokens ts)) := by
  unfold escapeTokens
  rw [if_pos h]
  exact ⟨(anchored_plainAt '{' ['{']).avoids (coarser_reSubTok escaping_tokHelmClose _)
      ((anchored_plainAt '{' ['{']).avoids_reSubTok escaping_tokHelmOpen
        (fun _ _ _ h => by simp [view_eq_of_tokHelmOpen h])
        (fun _ h => tokHelmOpen_ne_none_iff.2 h) _),
    (anchored_plainAt '}' ['}']).avoids_reSubTok escaping_tokHelmClose
      (fun _ _ _ h => by simp [view_eq_of_tokHelmClose h]) (fun _ h => tokHelmClose_of_plainAt h) _⟩

end FirstRun

/-! ### Braces that a later brace closes -/

/-- The token is an escaped brace. -/
def Tok.isBraceEsc : Tok → Bool
  | .esc .lbrace | .esc .rbrace => true
  | _ => false

theorem Tok.eq_of_braceFree_eq_false {t : Tok} (ht : t.braceFree = false) :
    (∃ h, t = .plain '{' h) ∨ (∃ h, t = .plain '}' h) ∨ t = .esc .lbrace ∨ t = .esc .rbrace := by
  cases t with
  | plain c hc =>
      by_cases h1 : c = '{'
      · subst h1; exact .inl ⟨hc, rfl⟩
      · by_cases h2 : c = '}'
        · subst h2; exact .inr (.inl ⟨hc, rfl⟩)
        · simp [Tok.braceFree, notBrace, h1, h2] at ht
  | esc e => cases e <;> simp_all [Tok.braceFree]

/-- One token of a scan for a plain `{` that a later brace closes across brace-free tokens.
`o` is `none` outside a run of brace-free tokens after a plain `{`, and `some nonempty`
inside one. The scan fails at an escaped `}` inside a run, and at a plain `}` inside one
when `p nonempty`: the regex `\{([^{}]+)\}` takes the first always, the second when the run
is not empty. -/
def scan (p : Bool → Bool) (o : Option Bool) : Tok → Option (Option Bool)
  | .plain '{' _ => some (some false)
  | .plain '}' _ => if o.any p then none else some none
  | .esc .rbrace => if o.isSome then none else some none
  | .esc .lbrace => some none
  | _ => some (o.map fun _ => true)

/-- The scan goes through the whole token list. -/
def unclosed (p : Bool → Bool) : Option Bool → List Tok → Bool
  | _, [] => true
  | o, t :: ts =>
      match scan p o t with
      | some o' => unclosed p o' ts
      | none => false

section Scan

variable {p : Bool → Bool}

@[simp] theorem unclosed_nil (o : Option Bool) : unclosed p o [] = true := rfl

theorem scan_braceFree {t : Tok} (ht : t.braceFree = true) (o : Option Bool) :
    scan p o t = some (o.map fun _ => true) := by
  cases t with
  | plain c hc =>
      have : c ≠ '{' ∧ c ≠ '}' := by simpa [Tok.braceFree, notBrace] using ht
      unfold scan
      split <;> simp_all
  | esc e => cases e <;> simp_all [Tok.braceFree, scan]

theorem scan_none {t : Tok} (ht : ∀ h, t ≠ .plain '{' h) : scan p none t = some none := by
  by_cases hb : t.braceFree = true
  · simp [scan_braceFree hb]
  · rcases Tok.eq_of_braceFree_eq_false (by simpa using hb) with ⟨h, rfl⟩ | ⟨h, rfl⟩ | rfl | rfl
    · exact absurd rfl (ht h)
    all_goals rfl

theorem unclosed_cons {o : Option Bool} {t : Tok} {ts : List Tok} :
    unclosed p o (t :: ts) = true ↔ ∃ o', scan p o t = some o' ∧ unclosed p o' ts = true := by
  simp only [unclosed]
  split <;> simp_all

theorem unclosed_cons_of_scan {o o' : Option Bool} {t : Tok} {ts : List Tok}
    (h : scan p o t = some o') : unclosed p o (t :: ts) = unclosed p o' ts := by
  simp only [unclosed, h]

@[simp] theorem unclosed_plain_lbrace (o : Option Bool) (h : '{' ≠ '\\') (ts : List Tok) :
    unclosed p o (.plain '{' h :: ts) = unclosed p (some false) ts := rfl

@[simp] theorem unclosed_plain_rbrace (o : Option Bool) (h : '}' ≠ '\\') (ts : List Tok) :
    unclosed p o (.plain '}' h :: ts) = (!o.any p && unclosed p none ts) := by
  simp only [unclosed, scan]
  split <;> simp_all

@[simp] theorem unclosed_esc_lbrace (o : Option Bool) (ts : List Tok) :
    unclosed p o (.esc .lbrace :: ts) = unclosed p none ts := rfl

@[simp] theorem unclosed_esc_rbrace (o : Option Bool) (ts : List Tok) :
    unclosed p o (.esc .rbrace :: ts) = (o.isNone && unclosed p none ts) := by
  cases o <;> rfl

theorem unclosed_cons_braceFree {t : Tok} (ht : t.braceFree = true) (o : Option Bool)
    (ts : List Tok) : unclosed p o (t :: ts) = unclosed p (o.map fun _ => true) ts :=
  unclosed_cons_of_scan (scan_braceFree ht o)

theorem unclosed_append_braceFree {w : List Tok} (hw : ∀ t ∈ w, t.braceFree = true)
    (o : Option Bool) (x : List Tok) :
    unclosed p o (w ++ x) = unclosed p (if w.isEmpty then o else o.map fun _ => true) x := by
  induction w generalizing o with
  | nil => rfl
  | cons t w ih =>
      simp only [List.forall_mem_cons] at hw
      rw [List.cons_append, unclosed_cons_braceFree hw.1, ih hw.2]
      cases o <;> cases w <;> rfl

theorem unclosed_none_of_some {b : Bool} {ts : List Tok} (h : unclosed p (some b) ts = true) :
    unclosed p none ts = true := by
  induction ts generalizing b with
  | nil => rfl
  | cons t ts ih =>
      by_cases ht : t.braceFree = true
      · rw [unclosed_cons_of_scan (scan_braceFree ht _)] at h ⊢
        exact ih h
      · rcases Tok.eq_of_braceFree_eq_false (by simpa using ht) with
          ⟨_, rfl⟩ | ⟨_, rfl⟩ | rfl | rfl <;> simp_all

theorem unclosed_none_of_unclosed {o : Option Bool} {ts : List Tok} (h : unclosed p o ts = true) :
    unclosed p none ts = true := by
  cases o with
  | none => exact h
  | some b => exact unclosed_none_of_some h

theorem unclosed_drop {o : Option Bool} {ts : List Tok} (h : unclosed p o ts = true) :
    ∀ n, unclosed p none (ts.drop n) = true := by
  induction ts generalizing o with
  | nil => intro n; simp
  | cons t ts ih =>
      intro n
      cases n with
      | zero => exact unclosed_none_of_unclosed h
      | succ n =>
          obtain ⟨o', -, hu⟩ := unclosed_cons.1 h
          exact ih hu n

theorem unclosed_mono {q : Bool → Bool} (hq : ∀ b, q b = true → p b = true) :
    ∀ {o : Option Bool} {ts : List Tok}, unclosed p o ts = true → unclosed q o ts = true
  | _, [], _ => rfl
  | o, t :: ts, h => by
      obtain ⟨o', hs, hu⟩ := unclosed_cons.1 h
      refine unclosed_cons.2 ⟨o', ?_, unclosed_mono hq hu⟩
      by_cases ht : t.braceFree = true
      · rwa [scan_braceFree ht] at hs ⊢
      · rcases Tok.eq_of_braceFree_eq_false (by simpa using ht) with
          ⟨_, rfl⟩ | ⟨_, rfl⟩ | rfl | rfl
        · exact hs
        · cases o with
          | none => exact hs
          | some b =>
              have := hq b
              cases hpb : p b <;> cases hqb : q b <;> simp_all [scan]
        · exact hs
        · exact hs

theorem unclosed_wordAt {o : Option Bool} {ts : List Tok} (h : unclosed p o ts = true) :
    ∀ us, us <:+ ts → escClosed us = false ∧ (p true = true → tokBracedWord us = none) := by
  induction ts generalizing o with
  | nil =>
      intro us hu
      rw [List.eq_nil_of_suffix_nil hu]
      exact ⟨rfl, fun _ => rfl⟩
  | cons t ts ih =>
      intro us hu
      rcases List.suffix_cons_iff.1 hu with rfl | hu
      · cases t with
        | esc e => exact ⟨rfl, fun _ => rfl⟩
        | plain c hc =>
            by_cases hc' : c = '{'
            · subst hc'
              rw [unclosed_plain_lbrace, ← List.takeWhile_append_dropWhile Tok.braceFree ts,
                unclosed_append_braceFree (fun t ht => List.mem_takeWhile_imp ht)] at h
              simp only [escClosed, tokBracedWord]
              cases hx : ts.dropWhile Tok.braceFree with
              | nil => exact ⟨rfl, fun _ => rfl⟩
              | cons t0 x =>
                  rw [hx] at h
                  rcases Tok.eq_of_braceFree_eq_false (braceFree_of_dropWhile_eq_cons hx) with
                    ⟨_, rfl⟩ | ⟨_, rfl⟩ | rfl | rfl
                  · exact ⟨rfl, fun _ => rfl⟩
                  · refine ⟨rfl, fun hp => ?_⟩
                    cases hw : (ts.takeWhile Tok.braceFree).isEmpty
                    · simp [hw, hp] at h
                    · simp [hw]
                  · exact ⟨rfl, fun _ => rfl⟩
                  · cases hw : (ts.takeWhile Tok.braceFree).isEmpty <;> simp [hw] at h
            · simp [escClosed, tokBracedWord, hc']
      · obtain ⟨o', -, hu'⟩ := unclosed_cons.1 h
        exact ih hu' us hu

end Scan

/-! ### The scan through the substitutions -/

theorem Avoids.of_suffix {Q : List (Option Char) → Prop} {u v : List (Option Char)}
    (h : Avoids Q v) (hu : u <:+ v) : Avoids Q u :=
  fun w hw => h w (hw.trans hu)

theorem isBraceEsc_of_mem_plains {l : List Char} {hl : '\\' ∉ l} :
    ∀ t ∈ plains l hl, t.isBraceEsc = false := by
  induction l with
  | nil => simp [plains]
  | cons c l ih =>
      simp only [plains, List.forall_mem_cons]
      exact ⟨rfl, ih⟩

theorem not_isBraceEsc_escapeLts {ts : List Tok} (h : ∀ t ∈ ts, t.isBraceEsc = false) :
    ∀ t ∈ escapeLts ts, t.isBraceEsc = false := by
  refine forall_mem_reSubTok ?_ _ (forall_mem_reSubTok ?_ _ (forall_mem_reSubTok ?_ ts h))
  · intro ts k r hm _
    unfold tokLtDash at hm
    split at hm
    · split at hm <;> cases hm
      simp [Tok.isBraceEsc]
    · cases hm
  · intro ts k r hm hts
    unfold tokLtChan at hm
    split at hm <;> cases hm
    intro t ht
    rcases List.mem_cons.1 ht with rfl | ht
    · rfl
    · exact hts t (List.mem_of_mem_take (List.mem_of_mem_tail ht))
  · intro ts k r hm _
    unfold tokLtDigit at hm
    split at hm
    · split at hm <;> cases hm
      simp [Tok.isBraceEsc]
    · cases hm

theorem ne_esc_rbrace_of_isBraceEsc {t : Tok} (h : t.isBraceEsc = false) : t ≠ .esc .rbrace := by
  rintro rfl
  cases h

theorem scan_lenient {t : Tok} (ht : t ≠ .esc .rbrace) (o : Option Bool) :
    ∃ o', scan (fun _ => false) o t = some o' := by
  by_cases hb : t.braceFree = true
  · exact ⟨_, scan_braceFree hb o⟩
  · rcases Tok.eq_of_braceFree_eq_false (by simpa using hb) with ⟨_, rfl⟩ | ⟨_, rfl⟩ | rfl | rfl
    · exact ⟨_, rfl⟩
    · cases o <;> exact ⟨_, rfl⟩
    · exact ⟨_, rfl⟩
    · exact absurd rfl ht

theorem unclosed_lenient :
    ∀ {o : Option Bool} {ts : List Tok}, (∀ t ∈ ts, t.isBraceEsc = false) →
      unclosed (fun _ => false) o ts = true
  | _, [], _ => rfl
  | o, t :: ts, h => by
      simp only [List.forall_mem_cons] at h
      obtain ⟨o', hs⟩ := scan_lenient (ne_esc_rbrace_of_isBraceEsc h.1) o
      exact unclosed_cons.2 ⟨o', hs, unclosed_lenient h.2⟩

theorem unclosed_reSubTok_emptyBraces :
    ∀ (ts : List Tok) (o : Option Bool), (∀ t ∈ ts, t.isBraceEsc = false) →
      unclosed (fun _ => false) o (reSubTok tokEmptyBraces 0 ts) = true
  | [], _, _ => rfl
  | t :: ts, o, h => by
      cases hm : tokEmptyBraces (t :: ts) with
      | none =>
          rw [reSubTok_noMatch hm]
          obtain ⟨o', hs⟩ :=
            scan_lenient (ne_esc_rbrace_of_isBraceEsc (h t (List.mem_cons_self _ _))) o
          exact unclosed_cons.2 ⟨o', hs, unclosed_reSubTok_emptyBraces ts o' fun u hu =>
            h u (List.mem_cons_of_mem _ hu)⟩
      | some q =>
          obtain ⟨k, r⟩ := q
          have hr : r = [.esc .lbrace, .esc .rbrace] := by
            unfold tokEmptyBraces at hm
            split at hm <;> cases hm
            rfl
          rw [reSubTok_match hm, hr]
          simp only [List.cons_append, List.nil_append, unclosed_esc_lbrace, unclosed_esc_rbrace,
            Option.isNone_none, Bool.true_and]
          exact unclosed_reSubTok_emptyBraces _ none fun u hu =>
            h u (List.mem_cons_of_mem _ (List.mem_of_mem_drop hu))
termination_by ts => ts.length

theorem unclosed_escapeBraces {ts : List Tok} (h : ∀ t ∈ ts, t.isBraceEsc = false) :
    unclosed (fun _ => false) none (escapeBraces ts) = true := by
  unfold escapeBraces
  dsimp only
  split
  · exact unclosed_reSubTok_emptyBraces _ _ (not_isBraceEsc_escapeLts h)
  · exact unclosed_lenient (not_isBraceEsc_escapeLts h)

theorem escClosed_escapeBraces {ts : List Tok} (h : ∀ t ∈ ts, t.isBraceEsc = false) :
    ∀ us, us <:+ escapeBraces ts → escClosed us = false :=
  fun us hu => (unclosed_wordAt (unclosed_escapeBraces h) us hu).1

theorem tokBracedWord_eq_some {ts r : List Tok} {k : Nat} (h : tokBracedWord ts = some (k, r)) :
    ∃ h₁ h₂ w x, ts = .plain '{' h₁ :: (w ++ .plain '}' h₂ :: x) ∧
      (∀ t ∈ w, t.braceFree = true) ∧ k = w.length + 2 ∧ r = .esc .lbrace :: w ++ [.esc .rbrace] := by
  unfold tokBracedWord at h
  split at h
  · rename_i h₁ rest
    dsimp only at h
    split at h
    · rename_i h₂ x hx
      split at h
      · cases h
      · cases h
        refine ⟨h₁, h₂, rest.takeWhile Tok.braceFree, x, ?_,
          fun t ht => List.mem_takeWhile_imp ht, rfl, rfl⟩
        rw [← hx, List.takeWhile_append_dropWhile]
    · cases h
  · cases h

theorem tokBracedWord_cons_of_ne {t : Tok} (ht : ∀ h, t ≠ .plain '{' h) (r : List Tok) :
    tokBracedWord (t :: r) = none := by
  cases t with
  | esc e => rfl
  | plain c hc =>
      have : c ≠ '{' := by rintro rfl; exact ht hc rfl
      simp [tokBracedWord, this]

theorem ne_plain_lbrace_of_braceFree {t : Tok} (ht : t.braceFree = true) :
    ∀ h, t ≠ .plain '{' h := by
  rintro h rfl
  cases ht

section ScanRun

variable {p : Bool → Bool}

theorem unclosed_reSubTok_bracedWord_lbrace (o : Option Bool) (h : '{' ≠ '\\') (y : List Tok) :
    unclosed p o (reSubTok tokBracedWord 0 (.plain '{' h :: y)) =
      unclosed p none (reSubTok tokBracedWord 0 (.plain '{' h :: y)) := by
  cases hm : tokBracedWord (.plain '{' h :: y) with
  | none => rw [reSubTok_noMatch hm]; rfl
  | some q =>
      obtain ⟨k, r⟩ := q
      obtain ⟨-, -, w, x, -, -, -, rfl⟩ := tokBracedWord_eq_some hm
      rw [reSubTok_match hm]
      rfl

private theorem unclosed_lbrace_of_noMatch {h₁ : '{' ≠ '\\'} {ts : List Tok}
    (hm : tokBracedWord (.plain '{' h₁ :: ts) = none)
    (hc : escClosed (.plain '{' h₁ :: ts) = false)
    (hp : p false = true → ¬ PlainAt ['{', '}'] (view (.plain '{' h₁ :: ts)))
    (ih : ∀ x, x <:+ ts → unclosed p none (reSubTok tokBracedWord 0 x) = true) :
    unclosed p none (.plain '{' h₁ :: reSubTok tokBracedWord 0 ts) = true := by
  have hsplit := List.takeWhile_append_dropWhile Tok.braceFree ts
  rw [unclosed_plain_lbrace, ← hsplit, reSubTok_append_of_head
      (fun u hu => tokBracedWord_cons_of_ne
        (ne_plain_lbrace_of_braceFree (List.mem_takeWhile_imp hu))),
    unclosed_append_braceFree (fun u hu => List.mem_takeWhile_imp hu)]
  have hx : ts.dropWhile Tok.braceFree <:+ ts := List.dropWhile_suffix _
  cases hxe : ts.dropWhile Tok.braceFree with
  | nil => cases (ts.takeWhile Tok.braceFree).isEmpty <;> rfl
  | cons t0 x =>
      rw [hxe] at hx hsplit
      have hx' : x <:+ ts := (List.suffix_cons _ _).trans hx
      rcases Tok.eq_of_braceFree_eq_false (braceFree_of_dropWhile_eq_cons hxe) with
        ⟨h0, rfl⟩ | ⟨h0, rfl⟩ | rfl | rfl
      · rw [unclosed_reSubTok_bracedWord_lbrace]
        exact ih _ hx
      · have hw : (ts.takeWhile Tok.braceFree).isEmpty = true := by
          simp only [tokBracedWord, hxe] at hm
          by_contra hne
          simp [hne] at hm
        rw [hw, if_pos rfl, reSubTok_noMatch (tokBracedWord_cons_of_ne (by simp) x),
          unclosed_plain_rbrace]
        cases hpf : p false
        · simpa [hpf] using ih x hx'
        · rw [List.isEmpty_iff.1 hw, List.nil_append] at hsplit
          exact absurd (hsplit ▸ List.prefix_append _ _) (hp hpf)
      · rw [reSubTok_noMatch (rfl : tokBracedWord (.esc .lbrace :: x) = none),
          unclosed_esc_lbrace]
        exact ih x hx'
      · simp [escClosed, hxe] at hc

private theorem unclosed_reSubTok_bracedWord_aux (ts : List Tok) :
    ∀ us, us <:+ ts → (∀ vs, vs <:+ us → escClosed vs = false) →
      (p false = true → Avoids (PlainAt ['{', '}']) (view us)) →
      unclosed p none (reSubTok tokBracedWord 0 us) = true := by
  induction ts with
  | nil =>
      intro us hu _ _
      rw [List.eq_nil_of_suffix_nil hu]
      rfl
  | cons t ts ih =>
      intro us hu hc hp
      rcases List.suffix_cons_iff.1 hu with rfl | hu
      swap
      · exact ih us hu hc hp
      have ih' : ∀ x, x <:+ ts → unclosed p none (reSubTok tokBracedWord 0 x) = true :=
        fun x hx => ih x hx (fun vs hv => hc vs (hv.trans (hx.trans (List.suffix_cons _ _))))
          fun h => (hp h).of_suffix ((hx.trans (List.suffix_cons t ts)).map Tok.view)
      cases hm : tokBracedWord (t :: ts) with
      | some q =>
          obtain ⟨k, r⟩ := q
          obtain ⟨h₁, h₂, w, x, heq, hw, rfl, rfl⟩ := tokBracedWord_eq_some hm
          rw [reSubTok_match hm]
          obtain ⟨rfl, rfl⟩ := List.cons.inj heq
          have hd : (w ++ .plain '}' h₂ :: x).drop (w.length + 2 - 1) = x := by
            simp [List.drop_append_eq_append_drop]
          rw [hd]
          simp only [List.cons_append, unclosed_esc_lbrace, List.append_assoc,
            unclosed_append_braceFree hw]
          cases w.isEmpty <;>
            simpa using ih' x ((List.suffix_cons _ _).trans (List.suffix_append _ _))
      | none =>
          rw [reSubTok_noMatch hm]
          by_cases ht : ∃ h, t = .plain '{' h
          · obtain ⟨h₁, rfl⟩ := ht
            exact unclosed_lbrace_of_noMatch hm (hc _ (List.suffix_refl _))
              (fun h => hp h _ (List.suffix_refl _)) ih'
          · rw [unclosed_cons_of_scan (scan_none fun h he => ht ⟨h, he⟩)]
            exact ih' ts (List.suffix_refl _)

/-- The braced-word substitution, run where no escaped `}` closes a plain `{`, leaves no
plain `{` that a later brace closes, but for a plain `{}`, which `p false` rules out where
there is none. -/
theorem unclosed_reSubTok_bracedWord {ts : List Tok}
    (hc : ∀ us, us <:+ ts → escClosed us = false)
    (hp : p false = true → Avoids (PlainAt ['{', '}']) (view ts)) :
    unclosed p none (reSubTok tokBracedWord 0 ts) = true :=
  unclosed_reSubTok_bracedWord_aux ts ts (List.suffix_refl _) hc hp

theorem unclosed_reSubTok_helmOpen :
    ∀ (ts : List Tok) (o : Option Bool), unclosed p o ts = true →
      unclosed p o (reSubTok tokHelmOpen 0 ts) = true
  | [], _, _ => rfl
  | t :: ts, o, h => by
      cases hm : tokHelmOpen (t :: ts) with
      | none =>
          rw [reSubTok_noMatch hm]
          obtain ⟨o', hs, hu⟩ := unclosed_cons.1 h
          exact unclosed_cons.2 ⟨o', hs, unclosed_reSubTok_helmOpen ts o' hu⟩
      | some q =>
          obtain ⟨k, r⟩ := q
          have hr : r = [.esc .lbrace, .esc .lbrace] := by
            unfold tokHelmOpen at hm
            split at hm <;> cases hm
            rfl
          rw [reSubTok_match hm, hr]
          simp only [List.cons_append, List.nil_append, unclosed_esc_lbrace]
          obtain ⟨o', -, hu⟩ := unclosed_cons.1 h
          exact unclosed_reSubTok_helmOpen _ none (unclosed_drop hu _)
termination_by ts => ts.length

theorem eq_none_of_unclosed_rbrace {o : Option Bool} {ts : List Tok}
    (h : unclosed (fun _ => true) o ts = true)
    (hp : PlainAt ['}'] (view ts) ∨ PlainAt ['-', '}'] (view ts)) : o = none := by
  rcases hp with hp | hp <;> obtain ⟨_, rest, rfl⟩ := plainAt_view_iff.1 hp
  · cases o <;> simp_all [plains]
  · rw [plains, List.cons_append, unclosed_cons_braceFree] at h
    · cases o <;> simp_all [plains]
    · rfl

theorem unclosed_reSubTok_helmClose :
    ∀ (ts : List Tok) (o : Option Bool), unclosed (fun _ => true) o ts = true →
      unclosed (fun _ => true) o (reSubTok tokHelmClose 0 ts) = true
  | [], _, _ => rfl
  | t :: ts, o, h => by
      cases hm : tokHelmClose (t :: ts) with
      | none =>
          rw [reSubTok_noMatch hm]
          obtain ⟨o', hs, hu⟩ := unclosed_cons.1 h
          exact unclosed_cons.2 ⟨o', hs, unclosed_reSubTok_helmClose ts o' hu⟩
      | some q =>
          obtain ⟨k, r⟩ := q
          obtain ⟨hr, hp⟩ := tokHelmClose_eq_some hm
          obtain rfl := eq_none_of_unclosed_rbrace h hp
          rw [reSubTok_match hm, hr]
          simp only [List.cons_append, List.nil_append, unclosed_esc_rbrace, Option.isNone_none,
            Bool.true_and]
          obtain ⟨o', -, hu⟩ := unclosed_cons.1 h
          exact unclosed_reSubTok_helmClose _ none (unclosed_drop hu _)
termination_by ts => ts.length

end ScanRun

/-- On a mermaid-like line whose only escapes are of `<`, the first run leaves no plain `{`
that a later brace closes. -/
theorem unclosed_escapeTokens {ts : List Tok} (h : ∀ t ∈ ts, t.isBraceEsc = false)
    (ha : "-->".toList.map some <:+: view (escapeTokens ts)) :
    unclosed id none (escapeTokens ts) = true := by
  have ha' : "-->".toList.map some <:+: view (escapeBraces ts) :=
    ((escapes_escapeTokens ts).trans (escapes_escapeMermaid ts)).coarser.infix_map_some ha
  have hmer : ∀ {p : Bool → Bool}, (p false = true → Avoids (PlainAt ['{', '}'])
      (view (escapeBraces ts))) → unclosed p none (escapeMermaid ts) = true := fun hp => by
    unfold escapeMermaid
    dsimp only
    rw [if_pos ha']
    exact unclosed_reSubTok_bracedWord (escClosed_escapeBraces h) hp
  unfold escapeTokens
  dsimp only
  split
  · rename_i ht
    have ht' : some '`' ∉ view (escapeLts ts) := by
      rwa [(escapes_escapeMermaid ts).coarser.tick_mem_iff,
        (escapes_escapeBraces ts).coarser.tick_mem_iff] at ht
    exact unclosed_mono (fun _ _ => rfl) (unclosed_reSubTok_helmClose _ _
      (unclosed_reSubTok_helmOpen _ _ (hmer fun _ => avoids_escapeBraces ts ht')))
  · exact hmer fun h => absurd h (by decide)

/-! ### A line the first run has escaped -/

/-- What the first run leaves on a line: no match of the substitutions for `<`; on a line
without backtick, none of the empty-braces and Helm substitutions; and on a mermaid-like
line, no plain `{` that a later brace closes. -/
structure Settled (ts : List Tok) : Prop where
  digit : Quiet tokLtDigit ts
  chan : Quiet tokLtChan ts
  dash : Quiet tokLtDash ts
  braces : some '`' ∉ view ts → Quiet tokEmptyBraces ts
  mermaid : "-->".toList.map some <:+: view ts → unclosed id none ts = true
  helmOpen : some '`' ∉ view ts → Quiet tokHelmOpen ts
  helmClose : some '`' ∉ view ts → Quiet tokHelmClose ts

namespace Settled

variable {ts : List Tok} (h : Settled ts)
include h

theorem escapeLts_eq : escapeLts ts = ts := by
  unfold escapeLts
  rw [h.digit.reSubTok_eq, h.chan.reSubTok_eq, h.dash.reSubTok_eq]

theorem escapeBraces_eq : escapeBraces ts = ts := by
  unfold escapeBraces
  dsimp only
  rw [h.escapeLts_eq]
  split
  · exact (h.braces ‹_›).reSubTok_eq
  · rfl

theorem escapeMermaid_eq : escapeMermaid ts = ts := by
  unfold escapeMermaid
  dsimp only
  rw [h.escapeBraces_eq]
  split
  · exact Quiet.reSubTok_eq fun us hu => (unclosed_wordAt (h.mermaid ‹_›) us hu).2 rfl
  · rfl

theorem escapeTokens_eq : escapeTokens ts = ts := by
  unfold escapeTokens
  dsimp only
  rw [h.escapeMermaid_eq]
  split
  · rw [(h.helmOpen ‹_›).reSubTok_eq, (h.helmClose ‹_›).reSubTok_eq]
  · rfl

theorem escapeLine_eq : escapeLine (render ts) = render ts := by
  have hc : "-->".toList.map some <:+: view (escapeBraces ts) →
      ∀ us, us <:+ escapeBraces ts → escClosed us = false := by
    rw [h.escapeBraces_eq]
    exact fun ha us hu => (unclosed_wordAt (h.mermaid ha) us hu).1
  rw [escapeLine_render hc, h.escapeTokens_eq]

end Settled

/-- The first run over a line whose only escapes are of `<` leaves it settled. -/
theorem settled_escapeTokens {ts : List Tok} (h : ∀ t ∈ ts, t.isBraceEsc = false) :
    Settled (escapeTokens ts) := by
  obtain ⟨hd, hc, hdash⟩ := avoids_escapeLts ts
  have hL := (escapes_escapeTokens_escapeLts ts).coarser
  have hM := (escapes_escapeTokens ts).coarser
  have htM : some '`' ∉ view (escapeTokens ts) → some '`' ∉ view (escapeMermaid ts) :=
    fun ht => by rwa [hM.tick_mem_iff] at ht
  exact ⟨quiet_of_avoids (fun _ hu => ⟨_, List.suffix_refl _, tokLtDigit_ne_none_iff.1 hu⟩)
      (anchored_digitAt.avoids hL hd),
    quiet_of_avoids (fun _ hu => ⟨_, List.suffix_refl _, tokLtChan_ne_none_iff.1 hu⟩)
      ((anchored_plainAt '<' "-chan".toList).avoids hL hc),
    quiet_of_avoids (fun _ hu => ⟨_, List.suffix_refl _, tokLtDash_ne_none_iff.1 hu⟩)
      (anchored_dashAt.avoids hL hdash),
    fun ht => quiet_of_avoids
      (fun _ hu => ⟨_, List.suffix_refl _, tokEmptyBraces_ne_none_iff.1 hu⟩)
      ((anchored_plainAt '{' ['}']).avoids (hM.trans (escapes_escapeMermaid ts).coarser)
        (avoids_escapeBraces ts (by rwa [hL.tick_mem_iff] at ht))),
    unclosed_escapeTokens h,
    fun ht => quiet_of_avoids (fun _ hu => ⟨_, List.suffix_refl _, tokHelmOpen_ne_none_iff.1 hu⟩)
      (avoids_escapeTokens ts (htM ht)).1,
    fun ht => quiet_of_avoids (fun _ => tokHelmClose_ne_none) (avoids_escapeTokens ts (htM ht)).2⟩

theorem escapeLine_render_of_isBraceEsc {ts : List Tok} (h : ∀ t ∈ ts, t.isBraceEsc = false) :
    escapeLine (render ts) = render (escapeTokens ts) :=
  escapeLine_render fun _ => escClosed_escapeBraces h

theorem escapeLine_eq_render {l : List Char} (hl : '\\' ∉ l) :
    escapeLine l = render (escapeTokens (plains l hl)) := by
  simpa using escapeLine_render_of_isBraceEsc (@isBraceEsc_of_mem_plains l hl)

/-- On a line with no backslash the substitutions only escape, as `Escapes` allows. -/
theorem escapes_escapeLine {l : List Char} (hl : '\\' ∉ l) :
    Escapes (escapeTokens (plains l hl)) (plains l hl) :=
  (escapes_escapeTokens_escapeLts _).trans (escapes_escapeLts _)

/-- On a line with no backslash, a second run of the substitutions changes nothing. -/
theorem escapeLine_escapeLine {l : List Char} (hl : '\\' ∉ l) :
    escapeLine (escapeLine l) = escapeLine l := by
  rw [escapeLine_eq_render hl]
  exact (settled_escapeTokens isBraceEsc_of_mem_plains).escapeLine_eq

/-- A fence line after the substitutions was one before. -/
theorem isFence_escapeLine {l : List Char} (hl : '\\' ∉ l) (h : isFence l = false) :
    isFence (escapeLine l) = false := by
  have hm : ∀ c ∈ fenceMarker, isSpace c = false := by decide
  have hb : '\\' ∉ fenceMarker := by decide
  have hreflect : ∀ ts us : List Tok, Coarser (view ts) (view us) →
      isFence (render ts) = true → isFence (render us) = true := by
    have hv : ∀ ts : List Tok,
        view (ts.dropWhile fun t => t.view.any isSpace) = (view ts).dropWhile fun o => o.any isSpace :=
      fun ts => (List.dropWhile_map Tok.view (fun o => o.any isSpace) ts).symm
    intro ts us hc
    simp only [isFence_iff, prefix_strip_iff hm, dropWhile_isSpace_render, prefix_render_iff hb, hv]
    exact (hc.dropWhile_space).prefix_map_some
  rw [escapeLine_eq_render hl]
  cases hf : isFence (render (escapeTokens (plains l hl)))
  · rfl
  · have := hreflect _ _ (escapes_escapeLine hl).coarser hf
    rw [render_plains, h] at this
    cases this

end DocFix.Mdx
