import BuildRecipe.Cli.Parse
import BuildRecipe.Cli.Commands
/-!
# One run of the program

A run reads the arguments and then carries out the request on the machine. Help and the
version go to standard output with status 0; a refused command line goes to standard error
with status 2; a request prints on standard output as it goes, and a failure ends it with
status 1 and the failure's text on standard error.

Main statements: every run ends with status 0, 1 or 2 and gives the console back
(`run_streams`), asking for the version first prints it and changes nothing
(`run_version_first`), and a refused command line leaves the machine as it was (`run_refused`).
-/

namespace BuildRecipe.Cli

/-- What a run leaves: its status, its two output streams, and the machine. -/
structure RunResult where
  status : Nat
  stdout : String
  stderr : String
  machine : Machine

/-- Run the program with arguments on a machine. -/
def run (args : List String) (m : Machine) : RunResult :=
  match parse args with
  | .error (.shown text) => ⟨0, text, "", m⟩
  | .error (.refused text) => ⟨2, "", text, m⟩
  | .ok r =>
    match (ExceptT.run r.perform).run { m with console := "" } with
    | (.ok (), m') => ⟨0, m'.console, "", { m' with console := m.console }⟩
    | (.error f, m') => ⟨1, m'.console, f.render, { m' with console := m.console }⟩

/-- Every run ends with status 0, 1 or 2, writes nothing on standard error when it succeeds,
and gives the machine back with the console it had: what the run printed is in its streams. -/
theorem run_streams (args : List String) (m : Machine) :
    ((run args m).status = 0 ∨ (run args m).status = 1 ∨ (run args m).status = 2) ∧
      ((run args m).status = 0 → (run args m).stderr = "") ∧
      (run args m).machine.console = m.console := by
  unfold run
  split
  · simp
  · simp
  · split <;> simp

/-- Asking for the version before anything else prints it and changes nothing, whatever
follows: reading stops there. -/
theorem run_version_first (rest : List String) (m : Machine) :
    run ("--version" :: rest) m = ⟨0, versionText, "", m⟩ := rfl

example (m : Machine) : run ["--version"] m = ⟨0, "kiln 0.1.0\n", "", m⟩ := rfl

theorem run_refused (args : List String) (m : Machine) (text : String)
    (h : parse args = .error (.refused text)) : run args m = ⟨2, "", text, m⟩ := by
  simp [run, h]

end BuildRecipe.Cli
