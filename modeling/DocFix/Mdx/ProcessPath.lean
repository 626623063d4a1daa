import DocFix.Mdx.Pipeline

/-!
`process_path`: a path that names a file is fixed when it ends in `.md`; a directory is
walked top-down with `os.walk`. At each directory the walk lists its files and its
subdirectories and runs the loop body, which fixes each `.md` file and removes
`node_modules`, `.git`, `vendor` and `build` from the subdirectories; it then descends into
the subdirectories left. The walk is the plain loop over the files it reaches
(`Dir.reached`), in the order it reaches them, and below a removed directory it reads
nothing. A path is the list of its parts, from the path given.
-/

namespace DocFix.Mdx

/-- A directory as `os.walk` lists it: its files with their contents as `f.read()` returns
them (`readText` of the text stored), and its subdirectories, each in listing order. -/
inductive Dir
  | mk (files : List (List Char × List Char)) (dirs : List (List Char × Dir))

/-- What the walk has done: `fixed`, and the files written, with their paths and new
contents, in order. -/
structure WalkState where
  fixed : Nat
  writes : List (List (List Char) × List Char)
  deriving DecidableEq, Repr

/-- `f.endswith('.md')`. -/
def isMd (name : List Char) : Bool := ".md".toList.isSuffixOf name

/-- The subdirectories the loop body removes from `dirs`. -/
def excludedDirs : List (List Char) :=
  ["node_modules".toList, ".git".toList, "vendor".toList, "build".toList]

/-- What a failing `fix_markdown_file` has written: nothing when `chr` raised, before the file
was opened; the file emptied when the write raised, since `open(filepath, 'w')` truncated it
first. -/
def failedWrite (path : List (List Char)) : DecodeError → List (List (List Char) × List Char)
  | .notInRange _ => []
  | .surrogate _ => [(path, [])]

/-- The loop body on one `.md` file: `fix_markdown_file`, then `fixed += 1` when it wrote the
file. An error of `fix_markdown_file` stops the walk with what it has written. -/
def fixMarkdownStep (st : WalkState) (file : List (List Char) × List Char) :
    Except (DecodeError × WalkState) WalkState :=
  match fixMarkdownFile file.2 with
  | .error e => .error (e, ⟨st.fixed, st.writes ++ failedWrite file.1 e⟩)
  | .ok (some new) => .ok ⟨st.fixed + 1, st.writes ++ [(file.1, new)]⟩
  | .ok none => .ok st

/-- The loop `for f in files` of the directory at `dir`. -/
def fixFiles (dir : List (List Char)) (st : WalkState) :
    List (List Char × List Char) → Except (DecodeError × WalkState) WalkState
  | [] => .ok st
  | (f, content) :: fs =>
      if isMd f then fixMarkdownStep st (dir ++ [f], content) >>= fun st => fixFiles dir st fs
      else fixFiles dir st fs

mutual
/-- `os.walk` from the directory at `dir`, with the loop body of `process_path`: the files
first, then each subdirectory the body keeps, in order. -/
def walk (dir : List (List Char)) (st : WalkState) : Dir → Except (DecodeError × WalkState) WalkState
  | .mk files dirs => fixFiles dir st files >>= fun st => walkDirs dir st dirs

def walkDirs (dir : List (List Char)) (st : WalkState) :
    List (List Char × Dir) → Except (DecodeError × WalkState) WalkState
  | [] => .ok st
  | (name, d) :: ds =>
      if name ∈ excludedDirs then walkDirs dir st ds
      else walk (dir ++ [name]) st d >>= fun st => walkDirs dir st ds
end

mutual
/-- The `.md` files the walk reaches below the directory at `dir`, with their paths. -/
def Dir.reached (dir : List (List Char)) : Dir → List (List (List Char) × List Char)
  | .mk files dirs =>
      (files.filter fun f => isMd f.1).map (fun f => (dir ++ [f.1], f.2)) ++ reachedDirs dir dirs

def reachedDirs (dir : List (List Char)) : List (List Char × Dir) → List (List (List Char) × List Char)
  | [] => []
  | (name, d) :: ds =>
      (if name ∈ excludedDirs then [] else d.reached (dir ++ [name])) ++ reachedDirs dir ds
end

theorem fixFiles_eq (dir : List (List Char)) (st : WalkState) (fs : List (List Char × List Char)) :
    fixFiles dir st fs =
      ((fs.filter fun f => isMd f.1).map fun f => (dir ++ [f.1], f.2)).foldlM fixMarkdownStep st := by
  induction fs generalizing st with
  | nil => rfl
  | cons fc fs ih =>
      obtain ⟨f, c⟩ := fc
      simp only [fixFiles, List.filter_cons]
      split <;> simp only [List.map_cons, List.foldlM_cons, ih]

mutual
theorem walk_eq (dir : List (List Char)) :
    ∀ (st : WalkState) (d : Dir), walk dir st d = (d.reached dir).foldlM fixMarkdownStep st
  | st, .mk files dirs => by
      simp only [walk, Dir.reached, List.foldlM_append, fixFiles_eq, walkDirs_eq dir _ dirs]

theorem walkDirs_eq (dir : List (List Char)) : ∀ (st : WalkState) (ds : List (List Char × Dir)),
    walkDirs dir st ds = (reachedDirs dir ds).foldlM fixMarkdownStep st
  | st, [] => rfl
  | st, (name, d) :: ds => by
      simp only [walkDirs, reachedDirs]
      split
      · rw [List.nil_append, walkDirs_eq dir st ds]
      · simp only [List.foldlM_append, walk_eq (dir ++ [name]) st d, walkDirs_eq dir _ ds]
end

mutual
/-- Every file the walk reaches is an `.md` file below the directory, under no removed
subdirectory. -/
theorem reached_path (dir : List (List Char)) : ∀ (d : Dir), ∀ w ∈ d.reached dir,
    ∃ p f, w.1 = dir ++ p ++ [f] ∧ (∀ x ∈ p, x ∉ excludedDirs) ∧ isMd f = true
  | .mk files dirs, w, hw => by
      rw [Dir.reached, List.mem_append] at hw
      rcases hw with hw | hw
      · obtain ⟨⟨f, c⟩, hf, rfl⟩ := List.mem_map.1 hw
        exact ⟨[], f, by simp, by simp, (List.mem_filter.1 hf).2⟩
      · exact reachedDirs_path dir dirs w hw

theorem reachedDirs_path (dir : List (List Char)) : ∀ (ds : List (List Char × Dir)),
    ∀ w ∈ reachedDirs dir ds,
      ∃ p f, w.1 = dir ++ p ++ [f] ∧ (∀ x ∈ p, x ∉ excludedDirs) ∧ isMd f = true
  | [], w, hw => by simp [reachedDirs] at hw
  | (name, d) :: ds, w, hw => by
      rw [reachedDirs, List.mem_append] at hw
      rcases hw with hw | hw
      · split at hw
        · simp at hw
        · obtain ⟨p, f, hp, hx, hf⟩ := reached_path (dir ++ [name]) d w hw
          exact ⟨name :: p, f, by simp [hp], by simpa [*] using hx, hf⟩
      · exact reachedDirs_path dir ds w hw
end

/-! ### The loop over the reached files -/

/-- The write the loop body makes for a file, when `fix_markdown_file` rewrites it. -/
def rewrite (file : List (List Char) × List Char) : Option (List (List Char) × List Char) :=
  match fixMarkdownFile file.2 with
  | .ok (some new) => some (file.1, new)
  | _ => none

/-- The state after the loop body has run over `files` without error. -/
def WalkState.after (st : WalkState) (files : List (List (List Char) × List Char)) :
    WalkState :=
  ⟨st.fixed + (files.filterMap rewrite).length, st.writes ++ files.filterMap rewrite⟩

section Loop

variable {files : List (List (List Char) × List Char)} {st : WalkState}

end Loop

/-! ### What `process_path` does to a directory -/

end DocFix.Mdx
