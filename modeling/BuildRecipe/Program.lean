import BuildRecipe.FileTree.Edit
/-!
# Running programs

A program is called with arguments, a standard input, a working directory and an
environment, all of them bytes, and it acts on the machine's files. It ends with an exit code,
or killed by a signal, and leaves its writes to standard output and standard error, in the
order it made them, and the files as it left them. What a stream received is its writes
joined in order; where both streams go to one place, the order of the writes is what shows.

An exit code of zero is success. A shell sees a program killed by signal `s` as status
`128 + s`, and a caller of the operating system sees no code at all.

Main statements: only code zero is success (`success_iff`), and a killed program has no
code (`code?_signal`).
-/

namespace BuildRecipe

/-- How a program ended. -/
inductive Exit where
  | code (n : Nat)
  | signal (n : Nat)
  deriving DecidableEq, Repr, Inhabited

namespace Exit

/-- Whether the program succeeded. -/
def success : Exit → Bool
  | code 0 => true
  | _ => false

/-- The exit code, absent after a signal. -/
def code? : Exit → Option Int
  | code n => some n
  | signal _ => none

/-- The status a shell sees. -/
def status : Exit → Nat
  | code n => n
  | signal s => 128 + s

theorem success_iff (e : Exit) : e.success = true ↔ e = code 0 := by
  cases e with
  | code n => cases n <;> simp [success]
  | signal s => simp [success]

theorem code?_signal (s : Nat) : (signal s).code? = none := rfl

end Exit

/-- What a program is called with: the name it was called by, its arguments, its standard
input, its working directory, its environment, and the mask of permission bits that files it
creates do not get. -/
structure Invocation where
  program : Bytes
  args : List Bytes
  stdin : Bytes := ""
  cwd : Location
  env : List (Bytes × Bytes) := []
  umask : Nat := 0o022
  /-- Whether standard input is a regular file, rather than a pipe or a device. -/
  stdinRegular : Bool := false
  deriving Repr, Inhabited

/-- The two output streams of a program. -/
inductive Channel where
  | out
  | err
  deriving DecidableEq, Repr, Inhabited

/-- Writes in order, each to one stream; a write right after one to the same stream joins it. -/
def Channel.push (ws : List (Channel × Bytes)) (c : Channel) (b : Bytes) : List (Channel × Bytes) :=
  if b.isEmpty then ws
  else match ws.reverse with
    | (c', b') :: rest => if c' == c then (rest.reverse ++ [(c, b' ++ b)]) else ws ++ [(c, b)]
    | [] => [(c, b)]

/-- What a finished program leaves. -/
structure Completion where
  exit : Exit
  writes : List (Channel × Bytes) := []
  files : FileTree
  deriving Repr, Inhabited

namespace Completion

/-- Everything a stream received. -/
def received (d : Completion) (c : Channel) : Bytes :=
  String.join (d.writes.filterMap fun (c', b) => if c' == c then some b else none)

/-- What the program wrote on standard output. -/
def stdout (d : Completion) : Bytes := d.received .out

/-- What the program wrote on standard error. -/
def stderr (d : Completion) : Bytes := d.received .err

end Completion

/-- The value of an environment variable. -/
def envGet? (env : List (Bytes × Bytes)) (name : Bytes) : Option Bytes :=
  (env.reverse.find? (·.1 == name)).map (·.2)

/-- An environment with a variable set, replacing an earlier value. -/
def envSet (env : List (Bytes × Bytes)) (name value : Bytes) : List (Bytes × Bytes) :=
  env.filter (·.1 != name) ++ [(name, value)]

theorem envGet?_envSet (env : List (Bytes × Bytes)) (n v : Bytes) :
    envGet? (envSet env n v) n = some v := by
  simp [envGet?, envSet]

end BuildRecipe
