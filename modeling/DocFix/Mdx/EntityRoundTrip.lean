import DocFix.Mdx.Entities

/-!
`decode_html_entities` against the encoding its table describes. The nine `str.replace`
calls run in table order over the whole text, and none looks at what an earlier one wrote.
On an encoded text, while the entities from `es` on are still encoded, the text is
`stage es s`: each character is its entity or itself. One replacement takes `stage (e :: es)`
to `stage es` when the entity text of `e` occurs nowhere but as the encoding of `e.2`. An
entity text starts with `&` and ends at its only `;`, so it cannot start inside another
entity; it can start at a plain `&` only once `&amp;` has been decoded, which is why
`&quot;` and `&#39;`, decoded after it, must not occur in the original text.
-/

namespace DocFix.Mdx

/-- An entity's text: `&`, then characters that are neither `&` nor `;`, then `;`. -/
def IsEntityText (p : List Char) : Prop :=
  ∃ o, p = '&' :: (o ++ [';']) ∧ '&' ∉ o ∧ ';' ∉ o

theorem IsEntityText.cons {p : List Char} (h : IsEntityText p) : ∃ t, p = '&' :: t ∧ '&' ∉ t := by
  obtain ⟨o, rfl, ha, -⟩ := h
  exact ⟨_, rfl, by simpa using ha⟩

/-- A text ending at its only `;` starts another such text, followed by anything, only if the
two are equal. -/
theorem eq_of_prefix_semicolon {t : List Char} :
    ∀ {o q : List Char}, ';' ∉ o → ';' ∉ q → q ++ [';'] <+: o ++ ';' :: t → q = o
  | [], [], _, _, _ => rfl
  | c :: o, [], ho, _, h => absurd ((List.cons_prefix_cons.1 h).1 ▸ List.mem_cons_self _ _) ho
  | [], c :: q, _, hq, h => absurd ((List.cons_prefix_cons.1 h).1 ▸ List.mem_cons_self _ _) hq
  | c :: o, d :: q, ho, hq, h => by
      rw [List.cons_append, List.cons_append, List.cons_prefix_cons] at h
      rw [h.1, eq_of_prefix_semicolon (fun e => ho (List.mem_cons_of_mem _ e))
        (fun e => hq (List.mem_cons_of_mem _ e)) h.2]

/-- Of two entity texts, one starts the other followed by any text only if they are equal. -/
theorem IsEntityText.eq_of_prefix_append {p q t : List Char} (hp : IsEntityText p)
    (hq : IsEntityText q) (h : q <+: p ++ t) : q = p := by
  obtain ⟨o, rfl, -, ho⟩ := hp
  obtain ⟨o', rfl, -, ho'⟩ := hq
  rw [List.cons_append, List.cons_prefix_cons, List.append_assoc] at h
  rw [eq_of_prefix_semicolon ho ho' h.2]

theorem htmlEntities_isEntityText : ∀ e ∈ htmlEntities, IsEntityText e.1 := by
  intro e he
  refine ⟨e.1.tail.dropLast, ?_⟩
  simp only [htmlEntities, List.mem_cons, List.not_mem_nil, or_false] at he
  rcases he with rfl | rfl | rfl | rfl | rfl | rfl | rfl | rfl | rfl <;> decide

/-! ### The text between two replacements -/

/-- What the encoder writes for `c` while the entities `es` are still encoded. -/
def piece (es : List (List Char × Char)) (c : Char) : List Char :=
  match es.find? (·.2 == c) with
  | some e => e.1
  | none => [c]

/-- The encoded text once the entities before `es` have been decoded. -/
def stage (es : List (List Char × Char)) (s : List Char) : List Char := s.flatMap (piece es)

theorem encodeHtmlEntities_eq_stage (s : List Char) :
    encodeHtmlEntities s = stage htmlEntities s := rfl

@[simp] theorem stage_nil_entities (s : List Char) : stage [] s = s := by
  induction s with
  | nil => rfl
  | cons c s ih => exact congrArg (c :: ·) ih

theorem stage_cons (es : List (List Char × Char)) (c : Char) (s : List Char) :
    stage es (c :: s) = piece es c ++ stage es s := List.flatMap_cons _ _ _

theorem piece_cons (e : List Char × Char) (es : List (List Char × Char)) (c : Char) :
    piece (e :: es) c = if e.2 = c then e.1 else piece es c := by
  by_cases h : e.2 = c <;> simp [piece, List.find?_cons, h]

/-- A character is written as itself, or as the text of an entity for it. -/
theorem piece_cases (es : List (List Char × Char)) (c : Char) :
    (c ∉ es.map Prod.snd ∧ piece es c = [c]) ∨ ∃ e ∈ es, e.2 = c ∧ piece es c = e.1 := by
  induction es with
  | nil => exact .inl ⟨List.not_mem_nil _, rfl⟩
  | cons e es ih =>
      rw [piece_cons]
      by_cases h : e.2 = c
      · exact .inr ⟨e, List.mem_cons_self _ _, h, if_pos h⟩
      · rw [if_neg h]
        rcases ih with ⟨hc, hp⟩ | ⟨x, hx, hxc, hp⟩
        · exact .inl ⟨by simp [Ne.symm h, hc], hp⟩
        · exact .inr ⟨x, List.mem_cons_of_mem _ hx, hxc, hp⟩

section Stage

variable {es : List (List Char × Char)} (hes : ∀ x ∈ es, IsEntityText x.1)
include hes

/-- A text without `&` that starts the encoded text starts the text itself: an entity
starts with `&`, so the text runs over characters written as themselves. -/
theorem prefix_of_prefix_stage : ∀ {o s : List Char}, '&' ∉ o → o <+: stage es s → o <+: s
  | [], _, _, _ => List.nil_prefix
  | q :: o, [], _, h => by simp [stage] at h
  | q :: o, c :: s, ho, h => by
      rw [stage_cons] at h
      rcases piece_cases es c with ⟨-, hp⟩ | ⟨x, hx, -, hp⟩
      · rw [hp, List.singleton_append, List.cons_prefix_cons] at h
        exact List.cons_prefix_cons.2 ⟨h.1, prefix_of_prefix_stage
          (fun e => ho (List.mem_cons_of_mem _ e)) h.2⟩
      · obtain ⟨t, ht, -⟩ := (hes x hx).cons
        rw [hp, ht, List.cons_append, List.cons_prefix_cons] at h
        exact absurd (h.1 ▸ List.mem_cons_self _ _) ho

/-- One replacement decodes the first entity still encoded, when its text occurs in the
encoded text only as the encoding of its character. -/
theorem replace_stage {p : List Char} {ch : Char} (he : IsEntityText p)
    (hc : ch ∉ es.map Prod.snd) (ht : p ∉ es.map Prod.fst) {s : List Char}
    (hraw : '&' ∉ ((p, ch) :: es).map Prod.snd → ¬ p <:+: s) :
    replace p [ch] (stage ((p, ch) :: es) s) = stage es s := by
  have hes' : ∀ x ∈ (p, ch) :: es, IsEntityText x.1 := List.forall_mem_cons.2 ⟨he, hes⟩
  obtain ⟨t, rfl, hta⟩ := he.cons
  suffices h : ∀ b, reSub (literal ('&' :: t) [ch]) 0 b (stage ((_, ch) :: es) s) = stage es s
    from h none
  induction s with
  | nil => intro b; rfl
  | cons c s ih =>
      have hraw' : '&' ∉ (('&' :: t, ch) :: es).map Prod.snd → ¬ '&' :: t <:+: s :=
        fun h hi => hraw h (hi.trans (List.suffix_cons _ _).isInfix)
      intro b
      rw [stage_cons, stage_cons, piece_cons]
      by_cases hec : ch = c
      · have hm : literal ('&' :: t) [ch] b ('&' :: (t ++ stage (('&' :: t, ch) :: es) s)) =
            some (t.length + 1, [ch]) := by
          simp [literal]
        rw [if_pos hec, List.cons_append, reSub_match hm, reSub_skip, ih hraw' _]
        rcases piece_cases es c with ⟨-, hp⟩ | ⟨x, hx, hxc, -⟩
        · rw [hp, hec]
        · exact absurd (by rw [hec, ← hxc]; exact List.mem_map_of_mem _ hx) hc
      · rw [if_neg hec, reSub_append_of_none ?_, ih hraw']
        intro b' u hu hne
        simp only [literal, ite_eq_right_iff, reduceCtorEq, imp_false]
        intro hpre
        rcases piece_cases es c with ⟨hnc, hp⟩ | ⟨x, hx, -, hp⟩
        · -- a plain character: only a plain `&` can start the entity text
          rw [hp] at hu
          obtain rfl : u = [c] := by
            rcases List.suffix_cons_iff.1 hu with h | h
            · exact h
            · exact absurd (List.eq_nil_of_suffix_nil h) hne
          rw [List.singleton_append, List.cons_prefix_cons] at hpre
          obtain ⟨rfl, hpre⟩ := hpre
          have hs : '&' :: t <+: '&' :: s :=
            List.cons_prefix_cons.2 ⟨rfl, prefix_of_prefix_stage hes' hta hpre⟩
          exact hraw (by simp [Ne.symm hec, hnc]) hs.isInfix
        · -- an entity: the text can only start at its `&`, and then it is that entity
          obtain ⟨tx, hxt, htx⟩ := (hes x hx).cons
          rw [hp, hxt] at hu
          rcases List.suffix_cons_iff.1 hu with rfl | hu
          · rw [← hxt] at hpre
            exact ht ((hes x hx).eq_of_prefix_append he hpre ▸ List.mem_map_of_mem _ hx)
          · obtain ⟨d, u, rfl⟩ := List.exists_cons_of_ne_nil hne
            rw [List.cons_append, List.cons_prefix_cons] at hpre
            exact htx (hpre.1 ▸ hu.subset (List.mem_cons_self _ _))

end Stage

/-! ### All nine replacements, then the numeric entities -/

/-- What decoding the entities `es` one after another needs at each step: an entity text,
whose character and text no later entity shares, and which, once `&` is written as itself,
does not occur in the original text. -/
def Undoable (s : List Char) : List (List Char × Char) → Prop
  | [] => True
  | e :: es => IsEntityText e.1 ∧ e.2 ∉ es.map Prod.snd ∧ e.1 ∉ es.map Prod.fst ∧
      ('&' ∉ (e :: es).map Prod.snd → ¬ e.1 <:+: s) ∧ Undoable s es

theorem Undoable.isEntityText {s : List Char} :
    ∀ {es : List (List Char × Char)}, Undoable s es → ∀ x ∈ es, IsEntityText x.1
  | [], _ => fun _ h => absurd h (List.not_mem_nil _)
  | _ :: _, ⟨he, _, _, _, h⟩ => List.forall_mem_cons.2 ⟨he, h.isEntityText⟩

theorem foldl_replace_stage {s : List Char} :
    ∀ {es : List (List Char × Char)}, Undoable s es →
      es.foldl (fun t e => replace e.1 [e.2] t) (stage es s) = s
  | [], _ => stage_nil_entities s
  | (_, _) :: _, ⟨he, hc, ht, hraw, h⟩ => by
      rw [List.foldl_cons, replace_stage h.isEntityText he hc ht hraw, foldl_replace_stage h]

/-- The table can be undone in its order: before `&amp;` no entity can start at a plain
`&`, and after it only `&quot;` and `&#39;` are left. -/
theorem undoable_htmlEntities {s : List Char} (hq : ¬ "&quot;".toList <:+: s)
    (h39 : ¬ "&#39;".toList <:+: s) : Undoable s htmlEntities := by
  have hx := htmlEntities_isEntityText
  simp only [htmlEntities, List.forall_mem_cons, List.not_mem_nil, false_implies, implies_true,
    and_true] at hx
  simp only [htmlEntities, Undoable, hx, true_and]
  and_intros
  all_goals first | decide | exact fun h => absurd (by decide) h | exact fun _ => hq |
    exact fun _ => h39

/-- `&#39;` is a numeric entity. -/
theorem not_infix_of_numericEntity {s : List Char} (hn : ∀ u ∈ s.tails, numericEntity u = none) :
    ¬ "&#39;".toList <:+: s := by
  rintro ⟨a, b, rfl⟩
  have h := hn _ ((List.mem_tails _ _).2 ⟨a, (List.append_assoc _ _ _).symm⟩)
  have hd : isDigit '3' = true ∧ isDigit '9' = true ∧ isDigit ';' = false := by decide
  simp [numericEntity, hd] at h

/-- Decoding undoes one level of the encoding its table describes, for every text in which no
`&` starts `&quot;` or a numeric entity `&#N;`. -/
theorem decodeHtmlEntities_encodeHtmlEntities {s : List Char}
    (hq : ¬ "&quot;".toList <:+: s) (hn : ∀ u ∈ s.tails, numericEntity u = none) :
    decodeHtmlEntities (encodeHtmlEntities s) = .ok s := by
  rw [decodeHtmlEntities, encodeHtmlEntities_eq_stage,
    foldl_replace_stage (undoable_htmlEntities hq (not_infix_of_numericEntity hn)),
    subNumeric_of_forall_none hn, List.drop_zero]
  exact toChars_map_char s

theorem decodeHtmlEntities_encodeHtmlEntities_of_entity_text :
    ¬ "&quot;".toList <:+: "a &lt; [b] & c".toList ∧
      (∀ u ∈ "a &lt; [b] & c".toList.tails, numericEntity u = none) ∧
      decodeHtmlEntities (encodeHtmlEntities "a &lt; [b] & c".toList) =
        .ok "a &lt; [b] & c".toList :=
  ⟨by decide, by decide, decodeHtmlEntities_encodeHtmlEntities (by decide) (by decide)⟩

end DocFix.Mdx
