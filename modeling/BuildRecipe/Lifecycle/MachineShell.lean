import BuildRecipe.Shell.Run
import BuildRecipe.Lifecycle.Tools
/-!
# Running programs of the machine

A program of the machine is started with arguments in a folder, its standard input empty,
with the machine's environment and some variables added, and waited for. The command is
described as the program and its arguments joined by blanks. A program that cannot be
started (a folder that is not there, checked first, or no program) is a configuration
error naming the command and the fault. A program that ends with a status other than 0, or by a signal, is
a build command failure for its step carrying the exit code (none after a signal) and
what it wrote on standard error; otherwise its output is the step's output.

Hooks run this way as `sh -c command`, through the `sh` found in the machine's `PATH`.

Also here: a tree with programs installed in a folder, and the listing of a folder's
entries by relative path, folders marked with a trailing slash.

Main statement: a machine without `sh` fails every hook as a configuration error
(`machineShell_missing`).
-/

namespace BuildRecipe

/-- The tree with utilities installed as programs in a folder, which is made. -/
def FileTree.withPrograms (t : FileTree) (folder : Location) (us : List Utility) : FileTree :=
  let t := (List.range folder.length).foldl (fun t i => t.set (folder.take (i + 1)) .directory) t
  us.foldl (fun t u => t.set (folder ++ [u.name]) (.executable u)) t

/-- The entries below a folder by relative path: a folder as `path/` with no text, a
file with its text. -/
def FileTree.listing (t : FileTree) (root : Location) : List (String × Option String) :=
  t.entries.filterMap fun (l, n) =>
    if root.isPrefixOf l && l.length > root.length then
      let rel := "/".intercalate (l.drop root.length)
      match n with
      | .directory => some (rel ++ "/", none)
      | .file c _ => some (rel, some c.toText)
      | .executable _ => some (rel, some "")
    else none

/-- The fault of a program that cannot be started. -/
def spawnFault (command : String) (e : IoFault) : Error :=
  .configuration ("Failed to run " ++ command ++ ": " ++ e.message)

/-- Run a program found as `program` (none when it is not there) for a step, with
arguments, in a folder (the working directory when none), with variables added. -/
def Act.spawn (step program : String) (found : Option Utility) (args : List String)
    (folder : Option String) (vars : List (String × String)) : Act StepOutput := do
  let m ← get
  let command := " ".intercalate (program :: args)
  let here ← match folder with
    | some d =>
      match m.files.directoryAt m.cwd d with
      | .ok l => pure l
      | .error e => throw (spawnFault command e)
    | none => pure m.cwd
  match found with
  | none => throw (spawnFault command .notFound)
  | some u =>
    let env := vars.foldl (fun e (n, v) => envSet e n v) m.env
    let inv : Invocation := {
      program := Bytes.ofText program
      args := args.map Bytes.ofText
      cwd := here
      env := env.map fun (n, v) => (Bytes.ofText n, Bytes.ofText v) }
    let done := Shell.runProgram u inv m.files
    set { m with files := done.files }
    if done.exit.success then return ⟨command, done.stdout.toText, done.stderr.toText⟩
    else throw (.command step done.exit.code? done.stderr.toText)

/-- The program `sh` of the machine's `PATH`, if there is one. -/
def shellProgram (m : Machine) : Option Utility :=
  match Shell.locate m.files m.cwd (Bytes.ofText ((envGet? m.env "PATH").getD "")) "sh" with
  | .found _ (.executable u) => some u
  | _ => none

/-- The machine's own shell. -/
def machineShell : CommandShell where
  run step script folder env := do
    let m ← get
    Act.spawn step "sh" (shellProgram m) ["-c", script] (some folder) env

theorem machineShell_missing (step script folder : String) (env : List (String × String))
    (m : Machine) (l : Location) (hd : m.files.directoryAt m.cwd folder = .ok l)
    (h : shellProgram m = none) :
    (machineShell.run step script folder env).run m =
      (.error (spawnFault ("sh -c " ++ script) .notFound), m) := by
  simp [machineShell, Act.spawn, Act.run, h, hd, ExceptT.run, bind, ExceptT.bind, ExceptT.bindCont,
    ExceptT.mk, get, getThe, MonadStateOf.get, ExceptT.lift, liftM, StateT.get, StateT.bind,
    StateT.run, pure, Act.stateT_pure_apply, ExceptT.pure, throw, throwThe, MonadExceptOf.throw, monadLift,
    MonadLift.monadLift, Functor.map, StateT.map]
  rfl

end BuildRecipe
