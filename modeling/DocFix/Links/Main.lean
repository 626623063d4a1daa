import DocFix.Links.FixFile

/-!
`main` of `fix-doc-links.py`: `fix_file` on every Markdown file under `docs/`, in sorted
order. Each `fix_file` that writes its file adds the file to the global set
`files_modified` and its count to the global `changes_made`, and the script ends by printing
both. Over a run, `files_modified` is the set of files written, and `changes_made` lies
between its size and forty times its size.
-/

namespace DocFix.Links

/-- The globals `changes_made` and `files_modified` of the script. -/
structure LinkRun where
  changesMade : Nat
  filesModified : List (List (List Char))
  deriving DecidableEq, Repr

/-- `fix_file(file_path)` with its updates of the globals: when it writes the file, the file
joins `files_modified` and its count is added to `changes_made`. -/
def fixFileRun (st : LinkRun) (file : List (List Char) × Option (List Char)) : LinkRun :=
  match fixFile file.1 file.2 with
  | (some _, n) => ⟨st.changesMade + n, st.filesModified.insert file.1⟩
  | (none, _) => st

/-- `<` on strings: code points compared from the left, a proper prefix first. -/
def strLt : List Char → List Char → Bool
  | [], _ :: _ => true
  | c :: s, d :: t => c.toNat < d.toNat || (c == d && strLt s t)
  | _, _ => false

/-- `<` on paths, as `pathlib` compares them: part by part, from the left. -/
def pathLt : List (List Char) → List (List Char) → Bool
  | [], _ :: _ => true
  | p :: ps, q :: qs => strLt p q || (p == q && pathLt ps qs)
  | _, _ => false

/-- Paths compare part by part, not as strings: `a/x.md` comes before `a-b/x.md`, though
`-` is below `/`. -/
example : pathLt ["a".toList, "x.md".toList] ["a-b".toList, "x.md".toList] = true := by decide

/-- `main()`: `fix_file` on each Markdown file under `docs/`, in sorted order. A file is the
parts of its path under `docs/` and its content, `none` when it cannot be read. -/
def linksMain (files : List (List (List Char) × Option (List Char))) : LinkRun :=
  (files.mergeSort fun a b => !pathLt b.1 a.1).foldl fixFileRun ⟨0, []⟩

/-- The invariant of the run: `files_modified` has no repeats, and `changes_made` is between
its size and forty times its size. -/
def LinkRun.Bounded (st : LinkRun) : Prop :=
  st.filesModified.Nodup ∧ st.filesModified.length ≤ st.changesMade ∧
    st.changesMade ≤ 40 * st.filesModified.length

/-- One file of the run keeps the invariant, and adds the file to `files_modified` exactly
when `fix_file` writes it. -/
theorem fixFileRun_step {st : LinkRun} (hb : st.Bounded) {p : List (List Char)}
    (hp : p ∉ st.filesModified) (c : Option (List Char)) :
    (fixFileRun st (p, c)).Bounded ∧ ∀ q, q ∈ (fixFileRun st (p, c)).filesModified ↔
      q ∈ st.filesModified ∨ q = p ∧ (fixFile p c).1.isSome := by
  rcases fixFile_cases p c with h | ⟨new, n, h, hn, hn'⟩
  · have hs : fixFileRun st (p, c) = st := by simp [fixFileRun, h]
    simp [hs, hb, h]
  · have hs : fixFileRun st (p, c) = ⟨st.changesMade + n, p :: st.filesModified⟩ := by
      simp [fixFileRun, h, List.insert_of_not_mem hp]
    obtain ⟨h1, h2, h3⟩ := hb
    rw [hs]
    exact ⟨⟨List.nodup_cons.2 ⟨hp, h1⟩, by simp; omega, by simp; omega⟩, fun q => by
      simp [h, or_comm]⟩

/-- The run over files with distinct paths, none already modified, keeps the invariant and
adds exactly the files `fix_file` writes. -/
theorem foldl_fixFileRun :
    ∀ (files : List (List (List Char) × Option (List Char))) (st : LinkRun),
      (files.map Prod.fst).Nodup → (∀ f ∈ files, f.1 ∉ st.filesModified) → st.Bounded →
        (files.foldl fixFileRun st).Bounded ∧
          ∀ q, q ∈ (files.foldl fixFileRun st).filesModified ↔
            q ∈ st.filesModified ∨ ∃ c, (q, c) ∈ files ∧ (fixFile q c).1.isSome
  | [], st, _, _, hb => ⟨hb, fun q => by simp⟩
  | (p, c) :: files, st, hd, hf, hb => by
      simp only [List.map_cons, List.nodup_cons, List.forall_mem_cons] at hd hf
      obtain ⟨hb1, hm1⟩ := fixFileRun_step hb hf.1 c
      have hf1 : ∀ f ∈ files, f.1 ∉ (fixFileRun st (p, c)).filesModified := fun f hf' h => by
        rcases (hm1 _).1 h with h | ⟨h, -⟩
        · exact hf.2 f hf' h
        · exact hd.1 (h ▸ List.mem_map_of_mem _ hf')
      obtain ⟨hb', hm⟩ := foldl_fixFileRun files _ hd.2 hf1 hb1
      refine ⟨hb', fun q => ?_⟩
      rw [List.foldl_cons, hm, hm1, or_assoc]
      refine or_congr_right ⟨?_, ?_⟩
      · rintro (⟨rfl, h⟩ | ⟨c', hm, h⟩)
        · exact ⟨c, List.mem_cons_self _ _, h⟩
        · exact ⟨c', List.mem_cons_of_mem _ hm, h⟩
      · rintro ⟨c', hm, h⟩
        rcases List.mem_cons.1 hm with he | hm
        · cases he
          exact .inl ⟨rfl, h⟩
        · exact .inr ⟨c', hm, h⟩

/-- The line `main` prints at the end: over files with distinct paths, `files_modified` is
the set of files `fix_file` wrote, and `changes_made` is at least its size and at most forty
times its size. -/
theorem linksMain_summary (files : List (List (List Char) × Option (List Char)))
    (hd : (files.map Prod.fst).Nodup) :
    (linksMain files).filesModified.length ≤ (linksMain files).changesMade ∧
      (linksMain files).changesMade ≤ 40 * (linksMain files).filesModified.length ∧
      ∀ p, p ∈ (linksMain files).filesModified ↔ ∃ c, (p, c) ∈ files ∧ (fixFile p c).1.isSome := by
  have hp := List.mergeSort_perm files fun a b => !pathLt b.1 a.1
  obtain ⟨⟨-, h1, h2⟩, hm⟩ := foldl_fixFileRun _ ⟨0, []⟩ ((hp.map Prod.fst).nodup_iff.2 hd)
    (by simp) ⟨List.nodup_nil, le_rfl, Nat.zero_le _⟩
  exact ⟨h1, h2, fun p => (hm p).trans (by simp)⟩

/-- A file that links a package and a file that cannot be read. -/
theorem linksMain_summary_of_two_files :
    let files := [(["b.md".toList], some "[x](/pkg/y)".toList), (["a.md".toList], none)]
    (files.map Prod.fst).Nodup ∧
      (linksMain files).filesModified.length ≤ (linksMain files).changesMade ∧
      (linksMain files).changesMade ≤ 40 * (linksMain files).filesModified.length ∧
      ∀ p, p ∈ (linksMain files).filesModified ↔ ∃ c, (p, c) ∈ files ∧ (fixFile p c).1.isSome := by
  intro files
  exact ⟨by decide, linksMain_summary _ (by decide)⟩

end DocFix.Links
