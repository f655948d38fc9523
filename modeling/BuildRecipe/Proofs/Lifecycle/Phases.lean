import BuildRecipe.Proofs.Act.Frame
/-!
# The package stage in phases

Packaging runs in four phases:

1. *clear*: check where the package folder lies, remove it when it exists, and make it again
   (`clearPackageFolder`);
2. *fill*: run the package hook, or the build tool's install (`fillPackageFolder`);
3. *collect*: copy the headers in and find the artifacts, of which there must be one
   (`collectPackage`);
4. *describe*: write the pkg-config file and the manifest (`writePackageMetadata`).

`package_eq_phases` shows the stage is these phases in sequence. Only filling reaches
outside the file tree; the other three work on files alone (`clearPackageFolder_onFiles`,
`collectPackage_onFiles`, `writePackageMetadata_onFiles`).
-/

namespace BuildRecipe

namespace Orchestrator

/-- Check the package folder's place, then clear it when it exists and make it again. -/
def clearPackageFolder (l : Layout) : Act Unit := do
  Act.ofOutcome (← Act.query fun t cwd => l.check t cwd)
  if (← Act.query (·.pathExists · l.packageFolder)) then
    Act.change (fun e => .packaging ("Failed to clear " ++ l.packageFolder ++ ": " ++ e.message))
      (·.removeDirAll · l.packageFolder)
  Act.change Error.ofFault (·.createDirAll · l.packageFolder)

/-- Fill the package folder: the package hook when the recipe has one, install otherwise. -/
def fillPackageFolder (o : Orchestrator) (c : RunContext) : Act StepOutput :=
  match c.hooks.get? .package with
  | some command => o.runHook c .package command
  | none => o.tool.install c.layout

theorem fillPackageFolder_of_none (o : Orchestrator) (c : RunContext)
    (h : c.hooks.get? .package = none) : o.fillPackageFolder c = o.tool.install c.layout := by
  rw [fillPackageFolder, h]

/-- Copy the headers into the filled folder and find its artifacts; none is a failure. -/
def collectPackage (c : RunContext) (output : StepOutput) :
    Act (StepOutput × List String × List String) := do
  let headers ← copyHeaders c.recipe.headers c.layout.sourceRoot c.layout.packageFolder
  let artifacts ← Act.query fun t cwd =>
    findArtifacts t cwd c.layout.packageFolder c.recipe.package.name c.libraryKind c.settings.os
  if artifacts.isEmpty then
    throw (.packaging ("No " ++ c.libraryKind.title ++ " library for '" ++ c.recipe.package.name ++
      "' found under " ++ c.layout.packageFolder))
  return (output, headers, artifacts)

/-- Write the pkg-config file and the manifest of what was collected, and report. -/
def writePackageMetadata (c : RunContext) (staged : StepOutput × List String × List String) :
    Act PackageReport := do
  let (output, headers, artifacts) := staged
  let folder := c.layout.packageFolder
  let p := c.recipe.package
  let info := ConsumerInfo.describe p
  let pcDir := Path.join (Path.join folder "lib") "pkgconfig"
  Act.change Error.ofFault (·.createDirAll · pcDir)
  let pkgConfig := Path.join pcDir (p.name ++ ".pc")
  Act.change Error.ofFault (·.writeText · pkgConfig (info.pkgConfig p))
  let manifest := Path.join folder manifestFile
  Act.change Error.ofFault (·.writeText · manifest
    (manifestJson c info folder artifacts headers).render)
  return ⟨folder, artifacts, headers, manifest, pkgConfig, output⟩

/-- The package stage is its four phases in sequence. -/
theorem package_eq_phases (o : Orchestrator) (c : RunContext) :
    o.package c = (do
      clearPackageFolder c.layout
      let output ← o.fillPackageFolder c
      let staged ← collectPackage c output
      writePackageMetadata c staged) := by
  unfold package clearPackageFolder fillPackageFolder collectPackage writePackageMetadata
  -- both sides make the same steps; they differ only in where the branches join again
  rcases c.hooks.get? .package with _ | command <;> simp only [bind_assoc]
  all_goals
    refine bind_congr fun _ => bind_congr fun _ => bind_congr fun cleared => ?_
    cases cleared <;> simp only [Bool.false_eq_true, ↓reduceIte, bind_assoc]
  all_goals
    repeat refine bind_congr fun _ => ?_
    split <;> simp only [bind_assoc, pure_bind]

theorem clearPackageFolder_onFiles (l : Layout) : Act.OnFiles (clearPackageFolder l) := by
  unfold clearPackageFolder
  refine .bind (.query _) fun _ => .bind (.ofOutcome _) fun _ => .bind (.query _) fun _ => ?_
  dsimp only
  exact .ite (.bind (.change _ _) fun _ => .change _ _) (.change _ _)

theorem collectPackage_onFiles (c : RunContext) (output : StepOutput) :
    Act.OnFiles (collectPackage c output) := by
  unfold collectPackage
  refine .bind (Act.copyHeaders_onFiles _ _ _) fun _ => .bind (.query _) fun _ => ?_
  dsimp only
  exact .ite (.bind (.throw _) fun _ => .pure _) (.pure _)

theorem writePackageMetadata_onFiles (c : RunContext)
    (staged : StepOutput × List String × List String) :
    Act.OnFiles (writePackageMetadata c staged) := by
  unfold writePackageMetadata
  exact .bind (.change _ _) fun _ => .bind (.change _ _) fun _ =>
    .bind (.change _ _) fun _ => .pure _

end Orchestrator

end BuildRecipe
