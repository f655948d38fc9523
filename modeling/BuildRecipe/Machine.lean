import BuildRecipe.FileTree.Edit
import BuildRecipe.Fetch
import BuildRecipe.Command
/-!
# Machines

A machine is what a run acts on: its file tree, the working directory of the running
program, its environment, the journal of calls that its build tool and its fetcher
received, oldest first, and what the running program has printed on its console.

An action (`Act`) reads and changes a machine and may fail with an `Error`; a failure
keeps every change made before it, as a process that stops half-way leaves its files
behind. File operations fail with an `IoFault`, which each caller turns into its own
error; `Error.ofFault` is the plain one, the fault's message as an I/O error.

Main statements: an action that only records a call appends it to the journal
(`record_journal`), and a pure action leaves the machine as it was (`run_pure`).
-/

namespace BuildRecipe

/-- A call received by a build tool or a fetcher. -/
inductive Call where
  | tool (step : String)
  | fetch (request : FetchRequest)
  deriving DecidableEq, Repr, Inhabited

/-- The state a run acts on. -/
structure Machine where
  files : FileTree
  cwd : Location := []
  env : List (String × String) := []
  journal : List Call := []
  console : String := ""
  deriving Inhabited

/-- An action on a machine that may fail, keeping the changes made before the failure. -/
abbrev Act (α : Type) := ExceptT Error (StateM Machine) α

/-- A file fault reported as an I/O error. -/
def Error.ofFault (f : IoFault) : Error := .io f.message

namespace Act

/-- The outcome of an action and the machine it leaves. -/
def run {α : Type} (a : Act α) (m : Machine) : Outcome α × Machine := (ExceptT.run a).run m

/-- The machine's file tree and working directory, for a query. -/
def query {α : Type} (f : FileTree → Location → α) : Act α := do
  let m ← get
  return f m.files m.cwd

/-- A file query that may fail, its fault reported by `wrap`. -/
def attempt {α : Type} (wrap : IoFault → Error) (f : FileTree → Location → Except IoFault α) :
    Act α := do
  let m ← get
  match f m.files m.cwd with
  | .ok a => return a
  | .error e => throw (wrap e)

/-- A change of the file tree that may fail, its fault reported by `wrap`. -/
def change (wrap : IoFault → Error) (f : FileTree → Location → Except IoFault FileTree) :
    Act Unit := do
  let m ← get
  match f m.files m.cwd with
  | .ok t => set { m with files := t }
  | .error e => throw (wrap e)

/-- Record a call in the journal. -/
def record (c : Call) : Act Unit := modify fun m => { m with journal := m.journal ++ [c] }

/-- Print a line on the console. -/
def print (line : String) : Act Unit := modify fun m => { m with console := m.console ++ line ++ "\n" }

/-- A state change is the state access that returns nothing; a step for unfolding actions. -/
theorem modify_eq_modifyGet (f : Machine → Machine) :
    (modify f : Act PUnit) = modifyGet fun m => (PUnit.unit, f m) := rfl

/-- A pure state step pairs the value with the state it was given. -/
theorem stateT_pure_apply {α : Type} (a : α) (m : Machine) :
    (StateT.pure a : StateM Machine α) m = (a, m) := rfl

theorem record_journal (c : Call) (m : Machine) :
    (record c).run m = (.ok (), { m with journal := m.journal ++ [c] }) := rfl

theorem run_pure {α : Type} (a : α) (m : Machine) : (pure a : Act α).run m = (.ok a, m) := rfl

end Act

end BuildRecipe
