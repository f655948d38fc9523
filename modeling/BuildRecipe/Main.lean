import BuildRecipe.Cli.Program
/-!
# The `kiln` command

The command carries out its arguments on a machine of this library's own file model: a
fresh working folder `/work`, the utilities the model knows installed in `/usr/bin` and
`/bin`, and `PATH` and `HOME` taken from the environment the command was started in. It
prints the run's standard output and standard error and exits with the run's status.
-/

open BuildRecipe

/-- The machine a command starts on. -/
def startMachine (path home : String) : Machine :=
  let t : FileTree := {}
  let t := t.set ["work"] .directory
  let t := (t.withPrograms ["usr", "bin"] Utility.all).withPrograms ["bin"] Utility.all
  { files := t, cwd := ["work"], env := [("PATH", path), ("HOME", home)] }

def main (args : List String) : IO UInt32 := do
  let path := (← IO.getEnv "PATH").getD "/usr/bin:/bin"
  let home := (← IO.getEnv "HOME").getD "/"
  let r := Cli.run args (startMachine path home)
  IO.print r.stdout
  IO.eprint r.stderr
  return r.status.toUInt32
