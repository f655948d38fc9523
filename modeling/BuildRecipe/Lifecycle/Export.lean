import BuildRecipe.Glob.Search
import BuildRecipe.Lifecycle.Artifacts
/-!
# Exporting sources

Exporting copies the files that a list of patterns selects below a root into a destination
folder. Each pattern is taken relative to the root and must compile; a path it matches
selects itself when it is a file and every file below it when it is a directory. The files
are taken once each, in path order (two texts for one path count once, the first kept),
and each is copied to the same relative path below the destination, making the folders it
needs. The relative paths copied are returned.

Main statement: each path is taken once, by its first text (`dedupePaths_spec`).
-/

namespace BuildRecipe

/-- Path texts without repeats of a path, the first text of each kept. -/
def dedupePaths (ps : List String) : List String :=
  ps.foldl (fun acc p =>
    if acc.any fun q => Path.components q == Path.components p then acc else acc ++ [p]) []

/-- Keeping the first text of each path from an accumulator whose texts are different paths: a
text kept was in the accumulator or the list, every text of either has a kept text with its
components, and the texts kept are different paths. The induction is on the list. -/
theorem dedupe_foldl (ps : List String) :
    ∀ acc : List String, acc.Pairwise (fun a b => Path.components a ≠ Path.components b) →
      let out := ps.foldl (fun acc p =>
        if acc.any fun q => Path.components q == Path.components p then acc else acc ++ [p]) acc
      (∀ x ∈ out, x ∈ acc ∨ x ∈ ps) ∧
        (∀ y ∈ acc ++ ps, ∃ x ∈ out, Path.components x = Path.components y) ∧
        out.Pairwise (fun a b => Path.components a ≠ Path.components b) := by
  induction ps with
  | nil =>
    intro acc hacc
    exact ⟨fun x hx => .inl hx, fun y hy => ⟨y, by simpa using hy, rfl⟩, hacc⟩
  | cons p ps ih =>
    intro acc hacc
    simp only [List.foldl_cons]
    by_cases hany : (acc.any fun q => Path.components q == Path.components p) = true
    · -- a text of the path is kept already
      rw [if_pos hany]
      obtain ⟨h1, h2, h3⟩ := ih acc hacc
      refine ⟨fun x hx => (h1 x hx).imp_right (List.mem_cons_of_mem _), fun y hy => ?_, h3⟩
      rcases List.mem_append.mp hy with hy | hy
      · exact h2 y (List.mem_append_left _ hy)
      rcases List.mem_cons.mp hy with rfl | hy
      · obtain ⟨q, hq, hqy⟩ := List.any_eq_true.mp hany
        obtain ⟨x, hx, hxq⟩ := h2 q (List.mem_append_left _ hq)
        exact ⟨x, hx, hxq.trans (beq_iff_eq.mp hqy)⟩
      · exact h2 y (List.mem_append_right _ hy)
    · -- the first text of its path is kept
      rw [if_neg hany]
      have hacc' : (acc ++ [p]).Pairwise (fun a b => Path.components a ≠ Path.components b) := by
        refine List.pairwise_append.mpr ⟨hacc, List.pairwise_singleton _ _, fun a ha b hb => ?_⟩
        rw [List.mem_singleton.mp hb]
        intro hab
        exact hany (List.any_eq_true.mpr ⟨a, ha, beq_iff_eq.mpr hab⟩)
      obtain ⟨h1, h2, h3⟩ := ih (acc ++ [p]) hacc'
      refine ⟨fun x hx => ?_, fun y hy => h2 y (by simpa using hy), h3⟩
      rcases h1 x hx with hx | hx
      · rcases List.mem_append.mp hx with hx | hx
        · exact .inl hx
        · exact .inr (List.mem_singleton.mp hx ▸ List.mem_cons_self ..)
      · exact .inr (List.mem_cons_of_mem _ hx)

/-- Each path once: every text kept is one of the list's, every text of the list has a kept text
with its components, and the texts kept are different paths. -/
theorem dedupePaths_spec (ps : List String) :
    (∀ x ∈ dedupePaths ps, x ∈ ps) ∧
      (∀ y ∈ ps, ∃ x ∈ dedupePaths ps, Path.components x = Path.components y) ∧
      (dedupePaths ps).Pairwise (fun a b => Path.components a ≠ Path.components b) := by
  obtain ⟨h1, h2, h3⟩ := dedupe_foldl ps [] .nil
  exact ⟨fun x hx => (h1 x hx).resolve_left List.not_mem_nil, fun y hy => h2 y (by simpa using hy), h3⟩

example : dedupePaths ["a/b", "c", "a//b/", "c"] = ["a/b", "c"] := by decide

/-- The files a pattern's matches select in a tree. -/
def selectedFiles (t : FileTree) (cwd : Location) (paths : List String) : List String :=
  paths.flatMap fun path =>
    if t.isDir cwd path then ((t.walk cwd path).filter (!·.isDirectory)).map (·.path)
    else if t.isFile cwd path then [path]
    else []

/-- The error for an export pattern that does not compile. -/
def invalidExportPattern (pattern : String) (e : Glob.PatternError) : Error :=
  .parse ("Invalid export pattern '" ++ pattern ++ "': " ++ e.text)

/-- Copy the files the patterns select below `root` into `dest`; the relative paths copied. -/
def exportFiles (root : String) (patterns : List String) (dest : String) : Act (List String) := do
  let mut found : List String := []
  for pattern in patterns do
    let m ← get
    match Glob.search m.files m.cwd (Path.join root pattern) with
    | .error e => throw (invalidExportPattern pattern e)
    | .ok paths => found := found ++ selectedFiles m.files m.cwd paths
  let mut exported : List String := []
  for file in sortPaths (dedupePaths found) do
    match Path.stripPrefixText? file root with
    | none => throw (.io (file ++ ": prefix not found"))
    | some rel =>
      let target := Path.join dest rel
      match Path.parent? target with
      | some parent => Act.change Error.ofFault (·.createDirAll · parent)
      | none => pure ()
      Act.change Error.ofFault (·.copyFile · file target)
      exported := exported ++ [rel]
  return exported

end BuildRecipe
