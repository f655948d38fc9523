import BuildRecipe.Proofs.Lifecycle.Calls
import BuildRecipe.Proofs.FileTree.Resolve
import BuildRecipe.Lifecycle.Simulated
import BuildRecipe.Lifecycle.MachineShell
import Mathlib.Data.List.TakeWhile
/-!
# Where a release is cloned

The source stage clones the release into a folder below the source root named after the
package url (`Recipe.cloneDirName`): the url's last segment, its trailing slashes and every
trailing `.git` removed (`Recipe.urlTail`), or the package name when nothing is left. A
source hook replaces the clone, and the stage then continues in that folder when the hook
made it a directory, and in the source root otherwise.

The folder is a direct child of the source root exactly when its name is a plain name, one
component of its own. The url's tail never holds a slash, so it is plain unless it is `.` or
`..`; the package name, taken when the tail is empty, is plain only when it is.

Main statement: `fetch_into_clone_folder`. Its counterexample, a url ending in `/..` and a
name with a slash, is `clone_folder_leaves_root`.
-/

namespace BuildRecipe

namespace Text

/-- Removing a suffix as often as it is there leaves a prefix of the text. -/
theorem dropSuffixes_prefix (suf s : List Char) : dropSuffixes suf s <+: s := by
  fun_induction dropSuffixes suf s with
  | case1 s _ ih => exact ih.trans (List.take_prefix _ _)
  | case2 s _ => exact List.prefix_refl s

theorem not_mem_afterLast (sep : Char) (s : List Char) : sep ∉ afterLast sep s := by
  unfold afterLast
  intro h
  have hne := List.mem_takeWhile_imp (List.mem_reverse.mp h)
  simp at hne

end Text

namespace Recipe

/-- The last segment of the url without its trailing slashes, every trailing `.git` removed. -/
def urlTail (r : Recipe) : List Char :=
  Text.dropSuffixes ".git".toList
    (Text.afterLast '/' (Text.dropSuffixes ['/'] r.package.url.toList))

theorem cloneDirName_eq (r : Recipe) :
    r.cloneDirName = if r.urlTail.isEmpty then r.package.name else String.ofList r.urlTail := rfl

theorem slash_not_mem_urlTail (r : Recipe) : '/' ∉ r.urlTail := fun h =>
  Text.not_mem_afterLast '/' _ ((Text.dropSuffixes_prefix _ _).subset h)

/-- A text without a slash is a plain name unless it is empty, `.` or `..`. -/
theorem isPlainName_ofList_iff {cs : List Char} (hs : '/' ∉ cs) :
    Path.IsPlainName (String.ofList cs) ↔ cs ≠ [] ∧ cs ≠ ['.'] ∧ cs ≠ ['.', '.'] := by
  have hinj : ∀ ds : List Char, String.ofList cs = String.ofList ds ↔ cs = ds := fun ds =>
    ⟨fun h => by simpa using congrArg String.toList h, fun h => h ▸ rfl⟩
  simp only [Path.IsPlainName, String.toList_ofList, hs, not_false_eq_true, true_and]
  rw [show ("" : String) = String.ofList [] from rfl, show "." = String.ofList ['.'] from rfl,
    show ".." = String.ofList ['.', '.'] from rfl]
  simp only [ne_eq, hinj]

/-- The clone folder is a plain name exactly when the url's tail is one other than `.` and
`..`, or the tail is empty and the package name is plain. -/
theorem cloneDirName_isPlainName_iff (r : Recipe) :
    Path.IsPlainName r.cloneDirName ↔
      (r.urlTail ≠ [] ∧ r.urlTail ≠ ['.'] ∧ r.urlTail ≠ ['.', '.']) ∨
        (r.urlTail = [] ∧ Path.IsPlainName r.package.name) := by
  rw [cloneDirName_eq]
  by_cases ht : r.urlTail = []
  · simp [ht]
  · rw [if_neg (by simpa using ht), isPlainName_ofList_iff r.slash_not_mem_urlTail]
    simp [ht]

/-- A recipe with a name has a clone folder. -/
theorem cloneDirName_ne_empty {r : Recipe} (h : r.package.name ≠ "") : r.cloneDirName ≠ "" := by
  rw [cloneDirName_eq]
  split
  · exact h
  · rename_i ht
    intro he
    have := congrArg String.toList he
    simp only [String.toList_ofList] at this
    simp [this] at ht

/-- A recipe that validates has a name. -/
theorem name_ne_empty_of_validate {r : Recipe} (h : r.validate.isOk = true) :
    r.package.name ≠ "" := by
  intro he
  rw [validate_emptyName r he] at h
  cases h

end Recipe

namespace Orchestrator

/-- Without a source hook the stage is the fetcher's clone into the clone folder. -/
theorem fetchSource_of_none (o : Orchestrator) (c : RunContext)
    (h : c.hooks.get? .source = none) :
    o.fetchSource c = (do
      let output ← o.fetcher.fetch (cloneRequest c)
      pure ((cloneRequest c).dest, output)) := by
  unfold fetchSource
  rw [h]
  rfl

/-- With a source hook the stage continues in the clone folder when the hook left a directory
there, and in the source root otherwise. -/
theorem fetchSource_hook_folder (o : Orchestrator) (c : RunContext) {command : String}
    (h : c.hooks.get? .source = some command) {m m' : Machine} {dir : String}
    {out : StepOutput} (hrun : (o.fetchSource c).run m = (.ok (dir, out), m')) :
    dir = if m'.files.isDir m'.cwd (cloneRequest c).dest then (cloneRequest c).dest
      else c.layout.sourceRoot := by
  unfold fetchSource at hrun
  rw [h] at hrun
  obtain ⟨output, m₀, -, hrest⟩ := Act.run_bind_ok hrun
  -- the folder is looked at on the machine the hook left
  rw [Act.run_bind, Act.run_query] at hrest
  simp only [Act.run_pure, Prod.mk.injEq, Except.ok.injEq] at hrest
  obtain ⟨⟨rfl, -⟩, rfl⟩ := hrest
  rfl

end Orchestrator

/-- The source stage clones the tag `v<version>` at the recipe's depth into the source root
joined with the clone folder, and with a source hook continues in that folder when the hook
made it a directory, else in the source root. The folder of a valid recipe has a name; it is
a direct child of the source root, wherever the working directory is, exactly when it is a
plain name, which is when the url's tail is a name other than `.` and `..`, or the tail is
empty and the package name is plain. -/
theorem fetch_into_clone_folder (o : Orchestrator) (c : RunContext)
    (hv : c.recipe.validate.isOk = true) :
    (c.hooks.get? .source = none →
      o.fetchSource c = (do
        let output ← o.fetcher.fetch ⟨c.recipe.package.url, "v" ++ c.recipe.package.version,
          c.recipe.source.depth, Path.join c.layout.sourceRoot c.recipe.cloneDirName⟩
        pure (Path.join c.layout.sourceRoot c.recipe.cloneDirName, output))) ∧
    (∀ command, c.hooks.get? .source = some command → ∀ m m' dir out,
      (o.fetchSource c).run m = (.ok (dir, out), m') →
      dir = if m'.files.isDir m'.cwd (Path.join c.layout.sourceRoot c.recipe.cloneDirName)
        then Path.join c.layout.sourceRoot c.recipe.cloneDirName else c.layout.sourceRoot) ∧
    c.recipe.cloneDirName ≠ "" ∧
    (Path.IsPlainName c.recipe.cloneDirName ↔
      (c.recipe.urlTail ≠ [] ∧ c.recipe.urlTail ≠ ['.'] ∧
          c.recipe.urlTail ≠ ['.', '.']) ∨
        (c.recipe.urlTail = [] ∧ Path.IsPlainName c.recipe.package.name)) ∧
    (Path.IsPlainName c.recipe.cloneDirName → ∀ cwd,
      Path.components (Path.join c.layout.sourceRoot c.recipe.cloneDirName) =
          Path.components c.layout.sourceRoot ++ [.normal c.recipe.cloneDirName] ∧
        Path.denote cwd (Path.join c.layout.sourceRoot c.recipe.cloneDirName) =
          Path.denote cwd c.layout.sourceRoot ++ [c.recipe.cloneDirName]) :=
  ⟨o.fetchSource_of_none c,
    fun _ h _ _ _ _ hrun => o.fetchSource_hook_folder c h hrun,
    Recipe.cloneDirName_ne_empty (Recipe.name_ne_empty_of_validate hv),
    Recipe.cloneDirName_isPlainName_iff c.recipe,
    fun hp cwd => ⟨Path.components_join_plain _ hp, Path.denote_join_plain cwd _ hp⟩⟩

/-- The stand-in tools: a build tool that records its calls and a fetcher that clones. -/
def standInOrchestrator : Orchestrator where
  tool := BuildTool.recording
  fetcher := simulatedFetcher false
  shell := machineShell

/-- The library `fm` with its sources under `/src`, cloned from a url. -/
def urlContext (name url : String) : RunContext :=
  { (default : RunContext) with
    recipe := { package := { name := name, version := "1.0.0", url := url } }
    layout := Layout.rootedAt "/src" }

/-- The library `fm` cloned from `https://example.org/fm.git/`. -/
def gitUrlContext : RunContext := urlContext "fm" "https://example.org/fm.git/"

/-- The url `https://example.org/fm.git/` clones into `/src/fm`, a child of the source root. -/
theorem fm_cloned_below_root :
    gitUrlContext.recipe.validate.isOk = true ∧
      Path.IsPlainName gitUrlContext.recipe.cloneDirName ∧
      Path.denote [] (Path.join "/src" gitUrlContext.recipe.cloneDirName) =
        ["src", gitUrlContext.recipe.cloneDirName] := by
  have hv : gitUrlContext.recipe.validate.isOk = true := by decide +kernel
  have hp : Path.IsPlainName gitUrlContext.recipe.cloneDirName := by decide +kernel
  exact ⟨hv, hp, ((fetch_into_clone_folder standInOrchestrator _ hv).2.2.2.2 hp []).2⟩

/-- Two valid recipes whose clone folder is not a child of the source root `/src`: a url
ending in `/..` clones into `/src/..`, the root folder above the sources, and a url whose
tail is only `.git` clones into the package name `fm/core`, two levels below. -/
theorem clone_folder_leaves_root :
    (urlContext "fm" "https://example.org/fm/..").recipe.validate.isOk = true ∧
      cloneRequest (urlContext "fm" "https://example.org/fm/..") =
        ⟨"https://example.org/fm/..", "v1.0.0", 1, "/src/.."⟩ ∧
      ¬ Path.IsPlainName (urlContext "fm" "https://example.org/fm/..").recipe.cloneDirName ∧
      Path.denote [] "/src/.." = [] ∧
    (urlContext "fm/core" "https://example.org/.git").recipe.validate.isOk = true ∧
      cloneRequest (urlContext "fm/core" "https://example.org/.git") =
        ⟨"https://example.org/.git", "v1.0.0", 1, "/src/fm/core"⟩ ∧
      ¬ Path.IsPlainName (urlContext "fm/core" "https://example.org/.git").recipe.cloneDirName ∧
      Path.denote [] "/src/fm/core" = ["src", "fm", "core"] := by
  refine ⟨by decide +kernel, by decide +kernel, by decide +kernel, by decide +kernel,
    by decide +kernel, by decide +kernel, by decide +kernel, by decide +kernel⟩

end BuildRecipe
