import BuildRecipe.Layout
import BuildRecipe.Proofs.FileTree.Resolve
/-!
# Which folders the package folder can cover

Clearing the package folder removes the directory it denotes (`Path.denote`) with everything
below it. The layout check compares the folders resolved: a path that names something
resolves to the root and the names of the directory it denotes, and any other path to its
lexical form (`Layout.resolve_eq`), which keeps a relative path relative.

An absolute path resolves the same way whether it names something or not
(`Layout.resolve_of_isAbsolute`), so between absolute paths covering is being a prefix of the
denoted directory (`Layout.covers_iff_isPrefix`), whatever the tree. The check reads the tree
only through whether each relative folder names something (`Layout.check_congr`): the same
layout can pass in one tree and be refused in another that differs from it only below the
package folder. A relative path that names nothing resolves to a form without the root, so
the root folder covers no such path (`Layout.covers_slash`).

Main statement: a layout that passes the check spares its roots, whatever the package
folder, the tree and the working directory, exactly when its source root is absolute
(`Layout.check_spares_roots_iff_isAbsolute`).
-/

namespace BuildRecipe

namespace Layout

-- ============================================================================
-- Resolved forms
-- ============================================================================

/-- A path resolves to the directory it denotes when it names something, and to its lexical
form otherwise. -/
theorem resolve_eq (t : FileTree) (cwd : Location) (p : String) :
    resolve t cwd p =
      if t.pathExists cwd p then .root :: (Path.denote cwd p).map .normal
      else Path.lexical p := by
  cases h : t.pathExists cwd p with
  | true => rw [resolve, FileTree.canonicalize_of_pathExists h, if_pos rfl]
  | false =>
    obtain ⟨f, hf⟩ := FileTree.canonicalize_of_not_pathExists h
    rw [resolve, hf, if_neg Bool.false_ne_true]

theorem resolve_of_not_pathExists {t : FileTree} {cwd : Location} {p : String}
    (h : t.pathExists cwd p = false) : resolve t cwd p = Path.lexical p := by
  rw [resolve_eq, h, if_neg Bool.false_ne_true]

/-- An absolute path resolves to the root and the names of the directory it denotes, whether
it names something or not. -/
theorem resolve_of_isAbsolute (t : FileTree) (cwd : Location) {p : String}
    (h : Path.isAbsolute p = true) :
    resolve t cwd p = .root :: (Path.denote cwd p).map .normal := by
  rw [resolve_eq]
  split
  · rfl
  · exact Path.lexical_of_isAbsolute h cwd

/-- Resolving reads the tree only through whether the path names something. -/
theorem resolve_congr {t t' : FileTree} {cwd : Location} {p : String}
    (h : Path.isAbsolute p = true ∨ t.pathExists cwd p = t'.pathExists cwd p) :
    resolve t cwd p = resolve t' cwd p := by
  rcases h with h | h
  · rw [resolve_of_isAbsolute t cwd h, resolve_of_isAbsolute t' cwd h]
  · rw [resolve_eq, resolve_eq, h]

/-- The check reads the tree only through whether each of the three folders names something,
and not at all for an absolute one. -/
theorem check_congr {l : Layout} {t t' : FileTree} {cwd : Location}
    (h : ∀ p ∈ [l.sourceRoot, l.buildRoot, l.packageFolder],
      Path.isAbsolute p = true ∨ t.pathExists cwd p = t'.pathExists cwd p) :
    l.check t cwd = l.check t' cwd := by
  have hs := resolve_congr (h l.sourceRoot (by simp))
  have hb := resolve_congr (h l.buildRoot (by simp))
  have hp := resolve_congr (h l.packageFolder (by simp))
  unfold check covers
  rw [hs, hb, hp]

/-- With the package folder `/w` and the source root `src` taken from `/w`, the check refuses
the layout once `/w/src` exists, and passes it in the tree without it, which differs only
below the package folder. -/
example :
    (((rootedAt "src").withPackageFolder "/w").check
        ⟨[(["w"], .directory), (["w", "src"], .directory)]⟩ ["w"]).toBool = false ∧
      (((rootedAt "src").withPackageFolder "/w").check ⟨[(["w"], .directory)]⟩ ["w"]).toBool =
        true := by
  decide +kernel

-- ============================================================================
-- Covering and the directories denoted
-- ============================================================================

/-- Clearing the package folder, taken from a working directory, spares the roots: the
folder is neither root nor a folder above one. -/
def SparesRoots (cwd : List String) (l : Layout) : Prop :=
  ¬ Path.denote cwd l.packageFolder <+: Path.denote cwd l.sourceRoot ∧
    ¬ Path.denote cwd l.packageFolder <+: Path.denote cwd l.buildRoot

theorem map_normal_prefix_iff {a b : List String} :
    a.map Component.normal <+: b.map Component.normal ↔ a <+: b := by
  refine ⟨fun h => ?_, fun h => h.map _⟩
  obtain ⟨a', ha', he⟩ := List.prefix_map_iff.mp h
  rwa [(List.map_inj_right fun _ _ h => Component.normal.inj h).mp he]

/-- Between absolute paths, covering is being a prefix of the directory denoted. -/
theorem covers_iff_isPrefix (l : Layout) {r : String}
    (hp : Path.isAbsolute l.packageFolder = true) (hr : Path.isAbsolute r = true)
    (t : FileTree) (cwd : List String) :
    l.covers t cwd r = true ↔ Path.denote cwd l.packageFolder <+: Path.denote cwd r := by
  rw [covers, Path.startsWith, resolve_of_isAbsolute t cwd hr, resolve_of_isAbsolute t cwd hp,
    List.isPrefixOf_iff_prefix, List.cons_prefix_cons, map_normal_prefix_iff]
  exact ⟨fun h => h.2, fun h => ⟨rfl, h⟩⟩

/-- The root folder covers no relative path that names nothing. -/
theorem covers_slash (l : Layout) (hp : l.packageFolder = "/") {t : FileTree}
    {cwd : Location} {r : String} (hr : Path.isAbsolute r = false)
    (hx : t.pathExists cwd r = false) : l.covers t cwd r = false := by
  rw [covers, Path.startsWith, hp, resolve_of_isAbsolute t cwd (by decide), Path.denote_slash,
    resolve_of_not_pathExists hx]
  have hroot := Path.root_not_mem_lexical hr
  cases hl : Path.lexical r with
  | nil => rfl
  | cons x rest =>
    rw [hl] at hroot
    have hx : x ≠ .root := fun h => hroot (h ▸ List.mem_cons_self ..)
    simp [List.isPrefixOf, Ne.symm hx]

theorem packageFolder_isAbsolute {root : String} (h : Path.isAbsolute root = true)
    (folder : String) :
    Path.isAbsolute ((rootedAt root).withPackageFolder folder).packageFolder = true := by
  simp only [withPackageFolder, rootedAt]
  split
  · assumption
  · rw [Path.isAbsolute_join, h, Bool.true_or]

/-- Whatever the package folder, the tree and the working directory, a layout that passes the
check spares its roots exactly when its source root is absolute: from a working directory
that holds nothing, no relative root names anything, and the root folder passes the check. -/
theorem check_spares_roots_iff_isAbsolute (root : String) :
    (∀ folder t cwd, ((rootedAt root).withPackageFolder folder).check t cwd = .ok () →
      ((rootedAt root).withPackageFolder folder).SparesRoots cwd) ↔
      Path.isAbsolute root = true := by
  constructor
  · intro h
    cases hr : Path.isAbsolute root with
    | true => rfl
    | false =>
      -- the root folder passes the check and lies above everything
      exfalso
      have hslash : ((rootedAt root).withPackageFolder "/").packageFolder = "/" := rfl
      have hbuild : Path.isAbsolute (Path.join root buildFolderName) = false := by
        rw [Path.isAbsolute_join, hr]
        rfl
      have hgone : ({} : FileTree).get? ["w"] = none := rfl
      have hcheck : ((rootedAt root).withPackageFolder "/").check {} ["w"] = .ok () :=
        (check_ok_iff _ _ _).mpr
          ⟨covers_slash _ hslash hr (FileTree.pathExists_of_get?_cwd_none hgone hr),
            covers_slash _ hslash hbuild (FileTree.pathExists_of_get?_cwd_none hgone hbuild)⟩
      refine (h "/" {} ["w"] hcheck).1 ?_
      rw [hslash, Path.denote_slash]
      exact List.nil_prefix
  · intro hr folder t cwd hc
    obtain ⟨hsrc, hbld⟩ := (check_ok_iff _ _ _).mp hc
    have hp := packageFolder_isAbsolute hr folder
    have hb : Path.isAbsolute (Path.join root buildFolderName) = true := by
      rw [Path.isAbsolute_join, hr, Bool.true_or]
    refine ⟨fun h => ?_, fun h => ?_⟩
    · exact Bool.false_ne_true (hsrc.symm.trans ((covers_iff_isPrefix _ hp hr t cwd).mpr h))
    · exact Bool.false_ne_true (hbld.symm.trans ((covers_iff_isPrefix _ hp hb t cwd).mpr h))

end Layout

end BuildRecipe
