import BuildRecipe.Recipe.Context
import BuildRecipe.Consumer
import BuildRecipe.Lifecycle.Tools
import BuildRecipe.Lifecycle.Generate
import BuildRecipe.Lifecycle.Headers
import BuildRecipe.Lifecycle.Export
import BuildRecipe.Text.Blank
/-!
# The lifecycle

A lifecycle takes a package from sources to a staged package folder in four stages, each
done by a capability unless the recipe has a hook for it, which then runs instead:

1. **Source**: clone the release tag into a folder named after the url, below the source
   root. A source hook replaces the clone; its folder is that one when the hook made it,
   and the source root otherwise.
2. **Generate**: write the native file and the toolchain record into the build root,
   which a fresh build clears first.
3. **Build**: configure, then compile; the build root must be a directory.
4. **Package**: clear and recreate the package folder (whose placement is checked first),
   install into it, copy the headers, require at least one artifact, and write the
   pkg-config file and the manifest.

`create` runs them in this order, the source stage only when the configuration asks for
it, and then continues in the fetched folder with the same package folder. The first
failure ends the run. The run log has a `=== stage ===` line per output, the command after
`$ `, and the output texts without their trailing blanks.

Main statements: the build stage refuses a missing build root before running anything
(`build_missing_root`), and a log of an output with nothing in it is its header line
(`appendOutput_empty`).
-/

namespace BuildRecipe

/-- What a lifecycle run does beyond the defaults: fetch the sources first, and clear the
build root before generating. -/
structure RunConfig where
  fetchSource : Bool := false
  freshBuild : Bool := false
  deriving DecidableEq, Repr, Inhabited

/-- A lifecycle runner: its configuration and the capabilities it drives. -/
structure Orchestrator where
  config : RunConfig := {}
  tool : BuildTool
  fetcher : Fetcher
  shell : CommandShell

/-- What packaging staged. -/
structure PackageReport where
  packageFolder : String
  artifacts : List String
  headers : List String
  manifest : String
  pkgConfig : String
  output : StepOutput
  deriving Repr, Inhabited

/-- What a whole run produced. -/
structure CreateResult where
  packageId : String
  package : PackageReport
  consumerInfo : ConsumerInfo
  fetchedSource : Option String
  log : String
  warnings : List String
  deriving Repr, Inhabited

/-- The file name of the manifest in the package folder. -/
def manifestFile : String := "kiln_manifest.json"

/-- The manifest of a staged package: descriptor, package id, settings, options, library
kind, consumer information, and the artifacts and headers relative to the folder. -/
def manifestJson (c : RunContext) (info : ConsumerInfo) (folder : String)
    (artifacts headers : List String) : Json :=
  .obj [("package", c.recipe.package.toJson), ("package_id", .str c.packageId),
    ("settings", c.settings.toJson), ("options", c.options.toJson),
    ("library_kind", .str c.libraryKind.name), ("consumer_info", info.toJson),
    ("artifacts", Json.strings (artifacts.map (Path.relativeText folder))),
    ("headers", Json.strings (headers.map (Path.relativeText folder)))]

/-- A line added to a log. -/
def logLine (log line : String) : String := log ++ line ++ "\n"

/-- A step's output added to a log under a stage header. -/
def appendOutput (log stage : String) (o : StepOutput) : String :=
  let log := logLine log ("=== " ++ stage ++ " ===")
  let log := if o.command.isEmpty then log else logLine log ("$ " ++ o.command)
  let log := if o.stdout.isEmpty then log else logLine log (Text.trimEnd o.stdout)
  if o.stderr.isEmpty then log else logLine log (Text.trimEnd o.stderr)

theorem appendOutput_empty (log stage : String) :
    appendOutput log stage ⟨"", "", ""⟩ = log ++ ("=== " ++ stage ++ " ===") ++ "\n" := by
  simp [appendOutput, logLine]

/-- An outcome taken into an action. -/
def Act.ofOutcome {α : Type} : Outcome α → Act α
  | .ok a => pure a
  | .error e => throw e

namespace Orchestrator

/-- Run a stage's hook command, substituted, in the source root. -/
def runHook (o : Orchestrator) (c : RunContext) (stage : Stage) (command : String) :
    Act StepOutput :=
  o.shell.run (stage.name ++ " hook") (c.substitute command) c.layout.sourceRoot c.hookEnv

/-- The text of an exit code in a fetch failure: the number, or `signal`. -/
def exitText : Option Int → String
  | some c => intText c
  | none => "signal"

/-- Fetch the release's sources: the folder holding them and the output. -/
def fetchSource (o : Orchestrator) (c : RunContext) : Act (String × StepOutput) := do
  let dest := Path.join c.layout.sourceRoot c.recipe.cloneDirName
  match c.hooks.get? .source with
  | some command =>
    let output ← tryCatch (o.runHook c .source command) fun e =>
      match e with
      | .command _ code stderr =>
        throw (.fetch ("source hook exited with " ++ exitText code ++ ": " ++ Text.trim stderr))
      | other => throw other
    let fetched := if (← Act.query (·.isDir · dest)) then dest else c.layout.sourceRoot
    return (fetched, output)
  | none =>
    let request := FetchRequest.of c.recipe.package c.recipe.source dest
    let output ← o.fetcher.fetch request
    return (request.dest, output)

/-- Write the toolchain files, or run the generate hook; the files written. -/
def generate (o : Orchestrator) (c : RunContext) : Act (List String) := do
  let l := c.layout
  if o.config.freshBuild && (← Act.query (·.pathExists · l.buildRoot)) then
    Act.change (fun e => .toolchain ("Failed to clear " ++ l.buildRoot ++ ": " ++ e.message))
      (·.removeDirAll · l.buildRoot)
  match c.hooks.get? .generate with
  | some command =>
    Act.change (fun e => .toolchain ("Failed to create " ++ l.buildRoot ++ ": " ++ e.message))
      (·.createDirAll · l.buildRoot)
    let _ ← tryCatch (o.runHook c .generate command) fun e =>
      throw (.toolchain ("generate hook failed: " ++ e.message))
    return []
  | none => writeToolchainFiles c.recipe.package c.settings c.options l

/-- The error for a build root that is not a directory. -/
def missingBuildRoot (l : Layout) : Error :=
  .configuration ("Build folder " ++ l.buildRoot ++
    " does not exist; generate the toolchain first")

/-- Configure and compile, or run the build hook; the outputs. -/
def build (o : Orchestrator) (c : RunContext) : Act (List StepOutput) := do
  let l := c.layout
  if !(← Act.query (·.isDir · l.buildRoot)) then throw (missingBuildRoot l)
  match c.hooks.get? .build with
  | some command => return [← o.runHook c .build command]
  | none =>
    let configured ← o.tool.configure l
    let built ← o.tool.build l
    return [configured, built]

/-- Install into a fresh package folder and complete it: headers, artifact check,
pkg-config file and manifest. -/
def package (o : Orchestrator) (c : RunContext) : Act PackageReport := do
  let l := c.layout
  let p := c.recipe.package
  let folder := l.packageFolder
  Act.ofOutcome (← Act.query fun t cwd => l.check t cwd)
  if (← Act.query (·.pathExists · folder)) then
    Act.change (fun e => .packaging ("Failed to clear " ++ folder ++ ": " ++ e.message))
      (·.removeDirAll · folder)
  Act.change Error.ofFault (·.createDirAll · folder)
  let output ← match c.hooks.get? .package with
    | some command => o.runHook c .package command
    | none => o.tool.install l
  let headers ← copyHeaders c.recipe.headers l.sourceRoot folder
  let kind := c.libraryKind
  let artifacts ← Act.query fun t cwd => findArtifacts t cwd folder p.name kind c.settings.os
  if artifacts.isEmpty then
    throw (.packaging ("No " ++ kind.title ++ " library for '" ++ p.name ++ "' found under " ++
      folder))
  let info := ConsumerInfo.describe p
  let pcDir := Path.join (Path.join folder "lib") "pkgconfig"
  Act.change Error.ofFault (·.createDirAll · pcDir)
  let pkgConfig := Path.join pcDir (p.name ++ ".pc")
  Act.change Error.ofFault (·.writeText · pkgConfig (info.pkgConfig p))
  let manifest := Path.join folder manifestFile
  Act.change Error.ofFault (·.writeText · manifest
    (manifestJson c info folder artifacts headers).render)
  return ⟨folder, artifacts, headers, manifest, pkgConfig, output⟩

/-- Copy the recipe's exported sources into a folder; the relative paths copied. -/
def exportSources (c : RunContext) (dest : String) : Act (List String) := do
  let patterns := c.recipe.package.exportsSources
  if patterns.isEmpty then return []
  Act.change Error.ofFault (·.createDirAll · dest)
  exportFiles c.layout.sourceRoot patterns dest

/-- Run the whole lifecycle. -/
def create (o : Orchestrator) (c : RunContext) : Act CreateResult := do
  let (c', fetched, log) ← if o.config.fetchSource then do
      let (dir, output) ← o.fetchSource c
      pure (c.rebased dir, some dir, appendOutput "" "source" output)
    else pure (c, none, "")
  let generated ← o.generate c'
  let log := generated.foldl (fun acc path => logLine acc ("wrote " ++ path))
    (logLine log "=== generate ===")
  let built ← o.build c'
  let log := built.foldl (fun acc out => appendOutput acc "build" out) log
  let report ← o.package c'
  let log := appendOutput log "package" report.output
  return ⟨c'.packageId, report, ConsumerInfo.describe c'.recipe.package, fetched, log, c.warnings⟩

theorem build_missing_root (o : Orchestrator) (c : RunContext) (m : Machine)
    (h : m.files.isDir m.cwd c.layout.buildRoot = false) :
    (o.build c).run m = (.error (missingBuildRoot c.layout), m) := by
  simp [build, Act.run, Act.query, ExceptT.run, bind, ExceptT.bind, ExceptT.bindCont,
    ExceptT.mk, get, getThe, MonadStateOf.get, ExceptT.lift, liftM, StateT.get, StateT.bind,
    StateT.run, pure, Act.stateT_pure_apply, ExceptT.pure, throw, throwThe, MonadExceptOf.throw, h,
    monadLift, MonadLift.monadLift, Functor.map, StateT.map]

end Orchestrator

end BuildRecipe
