import BuildRecipe.Cli.Request
import BuildRecipe.Lifecycle.Programs
import BuildRecipe.Recipe.File
import BuildRecipe.Recipe.Builtin
/-!
# Running a request

Every command first builds the run context from the common switches, in this order, each
failure reported under what was being done:

1. the source folder: the one given, made absolute and required to exist ("Source folder
   not accessible"), else the working directory; then the package folder given, which must
   not contain the source or build root ("Invalid --package-folder");
2. the recipe: the file given, taken from the working directory, else `kiln.toml` of the
   source folder when that is a file ("Failed to parse recipe"), else the built-in one;
3. the option assignments ("Invalid --option"), then the setting assignments and their
   application to the standard settings ("Invalid --setting");
4. validation, hooks and options ("Recipe validation failed"); each warning is then printed.

Then the command runs its stage of the lifecycle with Meson and Git as found on the
machine, and hooks through the machine's `sh`, and prints what it did. A failure is printed
on the error stream as `Error: CONTEXT`, a blank line, `Caused by:` and the cause with
every line indented by four blanks.

Main statement: a failure's text ends its cause's last line with a newline
(`render_single_line`).
-/

namespace BuildRecipe.Cli

/-- A failed command: what it was doing, and why that failed. -/
structure Failure where
  context : String
  cause : String
  deriving DecidableEq, Repr, Inhabited

/-- A text with every line indented by four blanks. -/
def indentLines (s : String) : String :=
  "\n".intercalate ((s.toList.splitOn '\n').map fun l => "    " ++ String.ofList l)

/-- The text of a failure on the error stream. -/
def Failure.render (f : Failure) : String :=
  "Error: " ++ f.context ++ "\n\nCaused by:\n" ++ indentLines f.cause ++ "\n"

/-- A command's work on the machine, failing with what it was doing. -/
abbrev Run (α : Type) := ExceptT Failure (StateM Machine) α

/-- A lifecycle action as a command's work; its error is reported under `context`. -/
def within {α : Type} (context : String) (a : Act α) : Run α :=
  ExceptT.mk do
    match ← ExceptT.run a with
    | .ok x => pure (.ok x)
    | .error e => pure (.error ⟨context, e.message⟩)

/-- An outcome as a command's work; its error is reported under `context`. -/
def checked {α : Type} (context : String) (o : Outcome α) : Run α :=
  match o with
  | .ok x => pure x
  | .error e => throw ⟨context, e.message⟩

/-- Print a line. -/
def say (line : String) : Run Unit :=
  modify fun m => { m with console := m.console ++ line ++ "\n" }

/-- The absolute path of an existing path. -/
def canonicalPath (t : FileTree) (cwd : Location) (p : String) : Except IoFault String := do
  let _ ← t.metadata cwd p
  let r ← t.resolve cwd p
  pure ("/" ++ "/".intercalate r.location)

/-- The folders of the run. -/
def resolveLayout (a : RecipeArgs) : Run Layout := do
  let m ← get
  let root ← match a.sourceFolder with
    | some folder =>
      match canonicalPath m.files m.cwd folder with
      | .ok p => pure p
      | .error e => throw ⟨"Source folder not accessible: " ++ folder, e.message⟩
    | none => pure ("/" ++ "/".intercalate m.cwd)
  let l := Layout.rootedAt root
  let l := match a.packageFolder with
    | some folder => l.withPackageFolder folder
    | none => l
  checked "Invalid --package-folder" (l.check m.files m.cwd)
  return l

/-- The recipe file looked for in the source folder. -/
def recipeFileName : String := "kiln.toml"

/-- The recipe of the run. -/
def loadRecipe (a : RecipeArgs) (l : Layout) : Run Recipe := do
  let m ← get
  match a.recipe with
  | some path =>
    checked ("Failed to parse recipe: " ++ path) (Decode.recipeOfFile m.files m.cwd path)
  | none =>
    let own := Path.join l.sourceRoot recipeFileName
    if m.files.isFile m.cwd own then
      checked ("Failed to parse recipe: " ++ own) (Decode.recipeOfFile m.files m.cwd own)
    else checked "Built-in recipe is invalid" builtinRecipe

/-- The run context, its warnings printed. -/
def loadContext (a : RecipeArgs) : Run RunContext := do
  let l ← resolveLayout a
  let r ← loadRecipe a l
  let options ← checked "Invalid --option" (a.options.mapM parseAssignment)
  let settings ← checked "Invalid --setting" (a.settings.mapM parseAssignment)
  let s ← checked "Invalid --setting" (Settings.standard.withOverrides settings)
  let c ← checked "Recipe validation failed" (RunContext.make r options s l)
  for w in c.warnings do say ("Warning: " ++ w)
  return c

/-- The lifecycle runner of a request: Meson and Git as named, and the machine's shell. -/
def orchestratorFor (a : RecipeArgs) (config : RunConfig) (jobs : Option Nat) : Orchestrator :=
  { config := config, tool := mesonTool a.meson jobs, fetcher := gitFetcher a.git,
    shell := machineShell }

/-- A truth value as printed. -/
def boolText (b : Bool) : String := if b then "true" else "false"

/-- The configuration line of `generate` and `create`. -/
def configurationText (c : RunContext) : String :=
  "(shared=" ++ boolText c.options.shared ++ ", build_type=" ++ c.settings.buildType.name ++ ")"

/-- Print the recipe and the resolved configuration. -/
def printRecipe (c : RunContext) : Run Unit := do
  let p := c.recipe.package
  say ("Recipe: " ++ p.name ++ " version " ++ p.version)
  if let some x := p.license then say ("  License: " ++ x)
  if let some x := p.author then say ("  Author: " ++ x)
  say ("  URL: " ++ p.url)
  if let some x := p.description then say ("  Description: " ++ x)
  if !p.topics.isEmpty then say ("  Topics: " ++ ", ".intercalate p.topics)
  say "  Options:"
  for (name, value) in c.options do
    let allowed := match c.recipe.options.get? name with
      | some spec => "|".intercalate (spec.values.map OptionValue.display)
      | none => ""
    say ("    " ++ name ++ " = " ++ value.display ++ " [" ++ allowed ++ "]")
  let s := c.settings
  say ("  Settings: os=" ++ s.os.name ++ " arch=" ++ s.arch ++ " compiler=" ++ s.compiler ++
    " build_type=" ++ s.buildType.name)
  say ("  Source tag: " ++ c.recipe.tag ++ " (depth " ++ Nat.repr c.recipe.source.depth ++ ")")
  if !c.hooks.isEmpty then
    say "  Hooks:"
    for stage in c.hooks.stages do
      say ("    " ++ stage.name ++ ": " ++ (c.hooks.get? stage).getD "")
  say ("  Package id: " ++ c.packageId)
  say "[OK] Recipe is valid"

/-- Write the run log to a file. -/
def writeLog (path log : String) : Run Unit := do
  let m ← get
  match m.files.writeText m.cwd path log with
  | .ok t => set { m with files := t }
  | .error e => throw ⟨"Failed to write log file: " ++ path, e.message⟩

/-- Print what a whole run produced. -/
def printCreated (r : CreateResult) : Run Unit := do
  say ("\n[COMPLETE] " ++ r.package.packageFolder)
  say ("  Package id: " ++ r.packageId)
  if let some dir := r.fetchedSource then say ("  Source: " ++ dir)
  for x in r.package.artifacts do say ("  Artifact: " ++ x)
  say ("  Libs: " ++ ", ".intercalate r.consumerInfo.libs)
  say ("  Include dirs: " ++ ", ".intercalate r.consumerInfo.includedirs)
  if !r.warnings.isEmpty then
    say "\nWarnings:"
    for w in r.warnings do say ("  - " ++ w)

/-- Carry out a request. -/
def Request.perform : Request → Run Unit
  | .layout a => do
    let c ← loadContext a
    say ("Source folder:  " ++ c.layout.sourceRoot)
    say ("Build folder:   " ++ c.layout.buildRoot)
    say ("Package folder: " ++ c.layout.packageFolder)
  | .source a => do
    let c ← loadContext a
    let p := c.recipe.package
    say ("Fetching " ++ p.name ++ " " ++ p.version ++ " (tag " ++ c.recipe.tag ++ ")")
    let (dir, _) ← within ("Failed to fetch sources for " ++ p.name)
      ((orchestratorFor a {} none).fetchSource c)
    say ("[COMPLETE] Sources in " ++ dir)
  | .generate a fresh => do
    let c ← loadContext a
    let written ← within "Failed to generate toolchain files"
      ((orchestratorFor a { freshBuild := fresh } none).generate c)
    say ("Generated toolchain for " ++ c.recipe.package.name ++ " " ++ configurationText c)
    for path in written do say ("  - " ++ path)
  | .build a jobs => do
    let c ← loadContext a
    let name := c.recipe.package.name
    let _ ← within ("Failed to build " ++ name) ((orchestratorFor a {} jobs).build c)
    say ("[COMPLETE] Built " ++ name ++ " in " ++ c.layout.buildRoot)
  | .package a => do
    let c ← loadContext a
    let report ← within ("Failed to package " ++ c.recipe.package.name)
      ((orchestratorFor a {} none).package c)
    say ("[COMPLETE] Packaged into " ++ report.packageFolder)
    say "  Artifacts:"
    for x in report.artifacts do say ("    - " ++ x)
    say ("  Headers: " ++ Nat.repr report.headers.length)
    say ("  Manifest: " ++ report.manifest)
  | .info a json => do
    let c ← loadContext a
    let p := c.recipe.package
    let info := ConsumerInfo.describe p
    if json then say info.toJson.render
    else
      say (p.name ++ "/" ++ p.version)
      say ("  libs: " ++ ", ".intercalate info.libs)
      say ("  includedirs: " ++ ", ".intercalate info.includedirs)
      say ("  libdirs: " ++ ", ".intercalate info.libdirs)
  | .create a fetch fresh jobs logFile => do
    let c ← loadContext a
    let p := c.recipe.package
    say ("Creating " ++ p.name ++ " " ++ p.version ++ " " ++ configurationText c)
    let result ← within ("Failed to create " ++ p.name)
      ((orchestratorFor a { fetchSource := fetch, freshBuild := fresh } jobs).create c)
    if let some path := logFile then writeLog path result.log
    printCreated result
  | .exportSources a dest => do
    let c ← loadContext a
    let exported ← within ("Failed to export sources to " ++ dest) (Orchestrator.exportSources c dest)
    say ("[COMPLETE] Exported " ++ Nat.repr exported.length ++ " file(s) to " ++ dest)
  | .inspect a => do
    let c ← loadContext a
    printRecipe c

theorem render_single_line (context cause : String) (h : ∀ c ∈ cause.toList, c ≠ '\n') :
    (Failure.render ⟨context, cause⟩) =
      "Error: " ++ context ++ "\n\nCaused by:\n    " ++ cause ++ "\n" := by
  have hs : cause.toList.splitOn '\n' = [cause.toList] := by
    apply List.splitOnP_eq_singleton
    intro x hx
    simpa using h x hx
  simp only [Failure.render, indentLines, hs, List.map_cons, List.map_nil, String.ofList_toList,
    String.intercalate_singleton, String.append_assoc]
  have e : "\n\nCaused by:\n" ++ ("    " ++ (cause ++ "\n")) = "\n\nCaused by:\n    " ++ (cause ++ "\n") := by
    rw [← String.append_assoc]; rfl
  rw [e]

end BuildRecipe.Cli
