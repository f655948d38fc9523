import BuildRecipe.Lifecycle.MachineShell
import BuildRecipe.Lifecycle.Orchestrator
/-!
# The build tool and the fetcher of a machine

On a real machine the lifecycle drives two programs, each found before it is run: a name
with a slash is a path from the working directory, another is looked up in each folder of
`PATH`, and only an executable file counts. A program that is not found is a configuration
error naming it; the command is described by the path found.

* The build tool is Meson: `setup --native-file NATIVE [--reconfigure] BUILD SOURCE`, where
  `--reconfigure` is added when the build root already has `meson-private`, then
  `compile -C BUILD [-j N]` and `install -C BUILD --destdir PACKAGE`, each run in the
  source root.
* The fetcher is Git: `clone --branch TAG [--depth D] URL DEST`, with `--depth` only for a
  positive depth. A destination that exists and is not an empty folder is refused first,
  and a failed clone is a fetch error with its exit code (or `signal`) and its error
  output trimmed.

Main statement: a build tool that is not there fails configuring with the configuration
error naming it and changes nothing (`mesonTool_missing`).
-/

namespace BuildRecipe

/-- A program found on the machine: the path it is run by, and what it is. -/
def locateProgram (files : FileTree) (cwd : Location) (path name : String) :
    Option (String × Utility) :=
  let executableAt (p : String) : Option (String × Utility) :=
    match files.metadata cwd p with
    | .ok (.executable u) => some (p, u)
    | _ => none
  if name.toList.contains '/' then executableAt (Path.join ("/" ++ "/".intercalate cwd) name)
  else (path.splitOn ":").firstM fun d => executableAt (Path.join d name)

/-- The program of a machine by name, or the configuration error for a tool not found. -/
def Act.locate (what program : String) : Act (String × Utility) := do
  let m ← get
  match locateProgram m.files m.cwd ((envGet? m.env "PATH").getD "") program with
  | some found => return found
  | none => throw (.configuration (what ++ " executable '" ++ program ++
      "' not found: cannot find binary path"))

/-- The arguments of `meson setup`. -/
def setupArgs (l : Layout) (reconfigure : Bool) : List String :=
  ["setup", "--native-file", l.nativeFile] ++ (if reconfigure then ["--reconfigure"] else []) ++
    [l.buildRoot, l.sourceRoot]

/-- The arguments of `meson compile`. -/
def compileArgs (l : Layout) (jobs : Option Nat) : List String :=
  ["compile", "-C", l.buildRoot] ++ (match jobs with
    | some j => ["-j", Nat.repr j]
    | none => [])

/-- The arguments of `meson install`. -/
def installArgs (l : Layout) : List String :=
  ["install", "-C", l.buildRoot, "--destdir", l.packageFolder]

/-- Meson found as `program`, compiling with `jobs` parallel jobs when given. -/
def mesonTool (program : String) (jobs : Option Nat) : BuildTool where
  configure l := do
    let (path, u) ← Act.locate "Meson" program
    let reconfigure ← Act.query (·.pathExists · (Path.join l.buildRoot "meson-private"))
    Act.spawn "meson setup" path (some u) (setupArgs l reconfigure) (some l.sourceRoot) []
  build l := do
    let (path, u) ← Act.locate "Meson" program
    Act.spawn "meson compile" path (some u) (compileArgs l jobs) (some l.sourceRoot) []
  install l := do
    let (path, u) ← Act.locate "Meson" program
    Act.spawn "meson install" path (some u) (installArgs l) (some l.sourceRoot) []

/-- The arguments of `git clone`. -/
def cloneArgs (r : FetchRequest) : List String :=
  ["clone", "--branch", r.tag] ++ (if r.depth > 0 then ["--depth", Nat.repr r.depth] else []) ++
    [r.url, r.dest]

/-- Whether a clone destination is taken: it exists and is not an empty folder. -/
def destinationTaken (t : FileTree) (cwd : Location) (dest : String) : Bool :=
  t.pathExists cwd dest &&
    match t.readDir cwd dest with
    | .ok names => !names.isEmpty
    | .error _ => true

/-- Git found as `program`. -/
def gitFetcher (program : String) : Fetcher where
  fetch r := do
    let (path, u) ← Act.locate "Git" program
    if (← Act.query (destinationTaken · · r.dest)) then
      throw (.fetch ("Destination " ++ r.dest ++ " already exists and is not empty"))
    tryCatch (Act.spawn "git clone" path (some u) (cloneArgs r) none []) fun e =>
      match e with
      | .command _ code stderr =>
        throw (.fetch ("git clone of " ++ r.url ++ " at tag " ++ r.tag ++ " exited with " ++
          Orchestrator.exitText code ++ ": " ++ Text.trim stderr))
      | other => throw other

theorem mesonTool_missing (program : String) (jobs : Option Nat) (l : Layout) (m : Machine)
    (h : locateProgram m.files m.cwd ((envGet? m.env "PATH").getD "") program = none) :
    ((mesonTool program jobs).configure l).run m =
      (.error (.configuration ("Meson executable '" ++ program ++
        "' not found: cannot find binary path")), m) := by
  simp [mesonTool, Act.locate, Act.run, h, ExceptT.run, bind, ExceptT.bind, ExceptT.bindCont,
    ExceptT.mk, get, getThe, MonadStateOf.get, ExceptT.lift, liftM, StateT.get, StateT.bind,
    StateT.run, pure, Act.stateT_pure_apply, ExceptT.pure, throw, throwThe, MonadExceptOf.throw, monadLift,
    MonadLift.monadLift, Functor.map, StateT.map]

end BuildRecipe
