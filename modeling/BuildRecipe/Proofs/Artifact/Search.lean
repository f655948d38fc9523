import BuildRecipe.Proofs.Artifact.Names
import BuildRecipe.Proofs.Lifecycle.Export
import BuildRecipe.Proofs.Lifecycle.HeaderCopy
/-!
# Finding a library's artifacts

`findArtifacts` walks a folder and keeps the paths of the entries that are not directories and
whose file name `isLibraryArtifact` takes for the library, sorted by path.

In a consistent tree (`ConsistentTree`: one entry per location, each hanging from a directory,
plain names) the artifacts are exactly the files at or below the folder, as the folder with the
names below it joined on, whose file name is taken, and they come in strictly increasing path
order. A folder that names nothing has none.

What the search keeps is then settled by the names alone (`BuildRecipe.Proofs.Artifact.Names`):
a file is never a static and a shared library of one name, a static library belongs to one name,
and two names meet in a shared library exactly when they are one name or one shares its shared
files with the other.

Main statement: `findArtifacts_attribution`. On Linux `libfoo.so.so` is a shared library of both
`foo` and `foo.so` (`shared_artifact_of_two_names`).
-/

namespace BuildRecipe

namespace FileTree

variable {t : FileTree}

-- ============================================================================
-- Each entry of a walk once
-- ============================================================================

/-- Every entry listed from a location carries the names that lead to it after the names that
lead to the location. -/
theorem below_of_mem_walkFrom {fuel : Nat} {path : String} {below : List String} {l : Location}
    {e : WalkEntry} (h : e ∈ t.walkFrom fuel path below l) : ∃ s, e.below = below ++ s := by
  induction fuel generalizing path below l with
  | zero => simp [walkFrom] at h
  | succ fuel ih =>
    unfold walkFrom at h
    split at h
    · cases h
    · rcases List.mem_cons.mp h with rfl | h
      · exact ⟨[], by simp⟩
      · obtain ⟨n, -, he⟩ := List.mem_flatMap.mp h
        obtain ⟨s, hs⟩ := ih he
        exact ⟨n :: s, by simp [hs]⟩
    · rw [List.mem_singleton.mp h]
      exact ⟨[], by simp⟩

/-- With one entry per location, a walk lists each location once: a directory is listed before
what is below it, and what is below one name apart from what is below another. -/
theorem walkFrom_pairwise_below (hnd : (t.entries.map (·.1)).Nodup) (fuel : Nat) (path : String)
    (below : List String) (l : Location) :
    (t.walkFrom fuel path below l).Pairwise fun a b => a.below ≠ b.below := by
  induction fuel generalizing path below l with
  | zero => exact .nil
  | succ fuel ih =>
    unfold walkFrom
    split
    · exact .nil
    · refine List.Pairwise.cons (fun e he => ?_) ?_
      · obtain ⟨n, -, he⟩ := List.mem_flatMap.mp he
        obtain ⟨s, hs⟩ := below_of_mem_walkFrom he
        simp [hs]
      · rw [List.pairwise_flatMap]
        refine ⟨fun n _ => ih _ _ _, List.Pairwise.imp (fun {n₁ n₂} hne a ha b hb => ?_)
          (children_nodup hnd l)⟩
        obtain ⟨s₁, h₁⟩ := below_of_mem_walkFrom ha
        obtain ⟨s₂, h₂⟩ := below_of_mem_walkFrom hb
        simp [h₁, h₂, hne]
    · exact List.pairwise_singleton _ _

theorem walk_pairwise_below (hnd : (t.entries.map (·.1)).Nodup) (cwd : Location) (p : String) :
    (t.walk cwd p).Pairwise fun a b => a.below ≠ b.below := by
  unfold walk
  split
  · split
    · exact walkFrom_pairwise_below hnd _ _ _ _
    · exact .nil
  · exact .nil

/-- A walk lists something only from a path that names something. -/
theorem metadata_ok_of_mem_walk {cwd : Location} {p : String} {e : WalkEntry}
    (he : e ∈ t.walk cwd p) : ∃ node, t.metadata cwd p = .ok node := by
  unfold walk at he
  split at he
  · split at he
    · exact ⟨_, by assumption⟩
    · cases he
  · cases he

/-- A walk from a path of a consistent tree lists each entry as the path with plain names
joined on: the names that lead to it. -/
theorem namesBelow?_walk_path (hc : t.Consistent) {cwd : Location} {p : String} {e : WalkEntry}
    (he : e ∈ t.walk cwd p) : Path.namesBelow? p e.path = some e.below := by
  obtain ⟨node, hm⟩ := metadata_ok_of_mem_walk he
  obtain ⟨s, n, hs, rfl⟩ := (mem_walk_iff hc.wellFormed hm).mp he
  have hsp : ∀ a ∈ s, Path.IsPlainName a := fun a ha =>
    hc.plainNames _ _ hs a (List.mem_append_right _ ha)
  exact Path.namesBelow?_eq_some.mpr ⟨hsp, Path.components_foldl_join p hsp⟩

end FileTree

-- ============================================================================
-- The artifacts found
-- ============================================================================

/-- A walked entry the search keeps: not a directory, with a file name taken for the library. -/
def keepsArtifact (name : String) (kind : LibraryKind) (os : Os) (e : WalkEntry) : Bool :=
  !e.isDirectory && (Path.fileName? e.path).any fun f => isLibraryArtifact f name kind os

variable {t : FileTree} {cwd : Location} {F name : String} {kind : LibraryKind} {os : Os}

/-- The search sorts the paths of the walked entries it keeps. -/
theorem findArtifacts_eq_map_filter :
    findArtifacts t cwd F name kind os =
      sortPaths (((t.walk cwd F).filter (keepsArtifact name kind os)).map (·.path)) := by
  unfold findArtifacts
  congr 1
  generalize t.walk cwd F = es
  induction es with
  | nil => rfl
  | cons e es ih =>
    rw [List.filterMap_cons, List.filter_cons, ih]
    unfold keepsArtifact
    cases e.isDirectory
    · cases Path.fileName? e.path with
      | none => simp
      | some f => cases hl : isLibraryArtifact f name kind os <;> simp [hl]
    · simp

theorem keepsArtifact_eq_true {e : WalkEntry} :
    keepsArtifact name kind os e = true ↔
      e.isDirectory = false ∧ ∃ f, Path.fileName? e.path = some f ∧ isLibraryArtifact f name kind os = true := by
  simp [keepsArtifact, Option.any_eq_true]

/-- The artifacts are the files at or below the folder, as the folder with the names below it
joined on, whose file name is taken for the library; a folder that names nothing has none. -/
theorem mem_findArtifacts_iff (hwf : t.WellFormed) {a : String} :
    a ∈ findArtifacts t cwd F name kind os ↔
      (∃ node, t.metadata cwd F = .ok node) ∧ ∃ s n, t.get? (Path.denote cwd F ++ s) = some n ∧
        n.isDirectory = false ∧ a = s.foldl Path.join F ∧
        ∃ f, Path.fileName? a = some f ∧ isLibraryArtifact f name kind os = true := by
  rw [findArtifacts_eq_map_filter, sortPaths, (sortBy_perm _ _).mem_iff, List.mem_map]
  constructor
  · rintro ⟨e, he, rfl⟩
    obtain ⟨he, hkeep⟩ := List.mem_filter.mp he
    obtain ⟨node, hm⟩ := FileTree.metadata_ok_of_mem_walk he
    obtain ⟨s, n, hs, rfl⟩ := (FileTree.mem_walk_iff hwf hm).mp he
    obtain ⟨hdir, hname⟩ := keepsArtifact_eq_true.mp hkeep
    exact ⟨⟨node, hm⟩, s, n, hs, hdir, rfl, hname⟩
  · rintro ⟨⟨node, hm⟩, s, n, hs, hdir, rfl, hname⟩
    refine ⟨_, List.mem_filter.mpr ⟨(FileTree.mem_walk_iff hwf hm).mpr ⟨s, n, hs, rfl⟩, ?_⟩, rfl⟩
    exact keepsArtifact_eq_true.mpr ⟨hdir, hname⟩

/-- The artifacts come in strictly increasing path order: the walk lists each location once, and
paths that add different names to the folder are different paths. -/
theorem findArtifacts_pairwise_lt (t : ConsistentTree) :
    (findArtifacts t.1 cwd F name kind os).Pairwise fun a b => Path.lt a b = true := by
  rw [findArtifacts_eq_map_filter]
  have hbelow : ∀ e ∈ (t.1.walk cwd F).filter (keepsArtifact name kind os),
      Path.namesBelow? F e.path = some e.below :=
    fun e he => FileTree.namesBelow?_walk_path t.2 (List.mem_filter.mp he).1
  refine @sortPaths_pairwise F _ (fun x hx => ?_) ?_
  · obtain ⟨e, he, rfl⟩ := List.mem_map.mp hx
    exact ⟨_, hbelow e he⟩
  · rw [List.pairwise_map]
    refine ((FileTree.walk_pairwise_below t.2.nodup cwd F).sublist List.filter_sublist).imp_of_mem
      fun {e e'} he he' hne hcomp => hne ?_
    rw [(Path.namesBelow?_eq_some.mp (hbelow e he)).2,
      (Path.namesBelow?_eq_some.mp (hbelow e' he')).2, List.append_cancel_left_eq] at hcomp
    exact (List.map_inj_right fun _ _ h => Component.normal.inj h).mp hcomp

/-- In a tree a file system can hold the artifacts of a library are exactly the files at or
below the folder whose file name is taken for it, in strictly increasing path order, and none
when the folder names nothing. Which names a file is taken for is settled by the names alone:
never for a static and a shared library of one name, a static library for one name only, and a
shared library for two names exactly when they are one name or one shares its shared files with
the other. -/
theorem findArtifacts_attribution (t : ConsistentTree) (cwd : Location) (F name : String)
    (kind : LibraryKind) (os : Os) :
    (∀ a, a ∈ findArtifacts t.1 cwd F name kind os ↔
      (∃ node, t.1.metadata cwd F = .ok node) ∧ ∃ s n, t.1.get? (Path.denote cwd F ++ s) = some n ∧
        n.isDirectory = false ∧ a = s.foldl Path.join F ∧
        ∃ f, Path.fileName? a = some f ∧ isLibraryArtifact f name kind os = true) ∧
    (findArtifacts t.1 cwd F name kind os).Pairwise (fun a b => Path.lt a b = true) ∧
    (∀ f n, ¬ (isLibraryArtifact f n .static os = true ∧ isLibraryArtifact f n .shared os = true)) ∧
    (∀ f n₁ n₂, isLibraryArtifact f n₁ .static os = true → isLibraryArtifact f n₂ .static os = true →
      n₁ = n₂) ∧
    (∀ n₁ n₂, (∃ f, isLibraryArtifact f n₁ .shared os = true ∧ isLibraryArtifact f n₂ .shared os = true) ↔
      n₁ = n₂ ∨ SharesSharedFiles os n₁ n₂ ∨ SharesSharedFiles os n₂ n₁) :=
  ⟨fun _ => mem_findArtifacts_iff t.2.wellFormed, findArtifacts_pairwise_lt t,
    not_static_and_shared os, fun _ _ _ => static_name_unique, shared_overlap_iff os⟩

/-- A package folder holding a static and a versioned shared library of `fm`. -/
def artifactSampleTree : FileTree :=
  ⟨[(["p"], .directory), (["p", "lib"], .directory), (["p", "lib", "libfm.a"], .file "a" 420),
    (["p", "lib", "libfm.so.1"], .file "s" 420)]⟩

theorem sample_static_artifact_found :
    artifactSampleTree.Consistent ∧
      "/p/lib/libfm.a" ∈ findArtifacts artifactSampleTree [] "/p" "fm" .static .linux := by
  have hc : artifactSampleTree.Consistent := by decide +kernel
  have hm : artifactSampleTree.metadata [] "/p" = .ok .directory := by decide +kernel
  have hg : artifactSampleTree.get? (Path.denote [] "/p" ++ ["lib", "libfm.a"]) =
      some (.file "a" 420) := by decide +kernel
  refine ⟨hc, ((findArtifacts_attribution ⟨artifactSampleTree, hc⟩ [] "/p" "fm" .static .linux).1
    _).mpr ⟨⟨.directory, hm⟩, ["lib", "libfm.a"], .file "a" 420, hg, rfl, by decide +kernel,
      "libfm.a", by decide +kernel, by decide +kernel⟩⟩

/-- On Linux `libfoo.so.so` is a shared library of both `foo` and `foo.so`. -/
theorem shared_artifact_of_two_names :
    isLibraryArtifact "libfoo.so.so" "foo" .shared .linux = true ∧
      isLibraryArtifact "libfoo.so.so" "foo.so" .shared .linux = true ∧ "foo" ≠ "foo.so" :=
  ⟨by decide +kernel, by decide +kernel, by decide +kernel⟩

end BuildRecipe
