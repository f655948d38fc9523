import BuildRecipe.Shell.Parse
import BuildRecipe.Shell.Number
import BuildRecipe.Program
/-!
# The state of a running shell

A running shell holds the machine's files and its working directory, its variables (each maybe
exported to the programs it runs, maybe read-only), its positional parameters and `$0`, its
options, functions, aliases, traps and file mask, the status of the last command, and a table of
open descriptors.

A descriptor leads to one of the shell's own two output streams, to the pipe it writes into (a
pipeline's next stage, or a command substitution reading it), to `/dev/null`, to a file written
at its end, or to an open input. Inputs are kept apart from the descriptors, by number, because
descriptors copied from one another share one position: what one reader takes, the others no
longer see.

What the shell writes to its own streams is kept in order, so that writes to standard output
and standard error interleave as they were made.

Messages are written `NAME: LINE: MESSAGE`, where inside a function the line counts from the
line the function was defined on.

Main statements: setting a variable then reading it gives the value (`lookup_assign`), and
bytes written to `/dev/null` leave the shell as it was (`emit_null`).
-/

namespace BuildRecipe.Shell

/-- Where a file descriptor leads. -/
inductive Stream where
  | out
  | err
  | pipe
  | null
  | file (location : Location)
  | source (id : Nat)
  deriving DecidableEq, Repr, Inhabited

/-- Why a shell stops running the commands in front of it. -/
inductive Halt where
  | exit (code : Nat)
  | signal (number : Nat)
  | breakLoop (levels : Nat)
  | continueLoop (levels : Nat)
  | returnFrom (code : Nat)
  deriving DecidableEq, Repr, Inhabited

/-- A shell variable. An unset value is a name marked for export or read-only only. -/
structure Var where
  name : Bytes
  value : Option Bytes
  exported : Bool := false
  readonly : Bool := false
  deriving DecidableEq, Repr, Inhabited

/-- The options of `set`. -/
structure Options where
  /-- `-e`: a failing command ends the shell. -/
  errexit : Bool := false
  /-- `-f`: no pathname expansion. -/
  noglob : Bool := false
  /-- `-n`: read commands without running them. -/
  noexec : Bool := false
  /-- `-u`: expanding an unset parameter is an error. -/
  nounset : Bool := false
  /-- `-v`: write input as it is read. -/
  verbose : Bool := false
  /-- `-x`: write each simple command before running it. -/
  xtrace : Bool := false
  /-- `-a`: export every variable assigned. -/
  allexport : Bool := false
  /-- `-C`: `>` refuses to overwrite a file. -/
  noclobber : Bool := false
  deriving DecidableEq, Repr, Inhabited

/-- A running shell. -/
structure Session where
  files : FileTree
  cwd : Location
  vars : List Var := []
  params : List Bytes := []
  name : Bytes := "sh"
  /-- The script file being read, named in the shell's messages after the line. -/
  commandName : Option Bytes := none
  /-- The number of the shell itself, `$$`, which its subshells keep. -/
  pid : Nat := 1000
  /-- The number of the process running: the shell or one of its subshells. -/
  selfPid : Nat := 1000
  /-- The processes this one was started from, nearest first. -/
  ancestors : List Nat := []
  nextPid : Nat := 1001
  options : Options := {}
  functions : List (Bytes × Command) := []
  aliases : List (Bytes × Bytes) := []
  /-- The action of each trapped signal by number, `0` for the shell's exit; an empty action
  ignores the signal. -/
  traps : List (Nat × Bytes) := []
  umask : Nat := 0o022
  status : Nat := 0
  /-- The status of the last command substitution of the command being expanded. -/
  substStatus : Nat := 0
  line : Nat := 1
  /-- The line a running function was defined on; 0 outside functions. -/
  funcLine : Nat := 0
  loops : Nat := 0
  funcDepth : Nat := 0
  /-- Inside a condition, where a failing command does not end the shell under `-e`. -/
  inCondition : Bool := false
  background : Option Nat := none
  fds : List (Nat × Stream) := [(0, .source 0), (1, .out), (2, .err)]
  inputs : List (Nat × Bytes) := [(0, "")]
  /-- The open inputs that read a regular file. -/
  regularInputs : List Nat := []
  nextInput : Nat := 1
  writes : List (Channel × Bytes) := []
  pipe : Bytes := ""
  halt : Option Halt := none
  bodies : List (Nat × Word) := []
  nextHere : Nat := 0
  /-- For each running function, the variables it made local and what they were before. -/
  locals : List (List Var) := []
  /-- The argument `getopts` reads next, counted from 1. -/
  optIndex : Nat := 1
  /-- Where `getopts` is inside the argument before `optIndex`, if it is inside one. -/
  optOffset : Option Nat := none
  /-- Signals sent to other processes, with the number of each. -/
  signalsSent : List (Nat × Nat) := []
  /-- Signals received whose trap has yet to run. -/
  pendingTraps : List Nat := []
  /-- The programs found in the search path so far, by name. -/
  hashed : List (Bytes × Bytes) := []
  /-- The status of each command run in the background, by its number. -/
  jobs : List (Nat × Nat) := []

namespace Session

-- ============================================================================
-- Descriptors and streams
-- ============================================================================

/-- Where a descriptor leads, if it is open. -/
def stream? (s : Session) (fd : Nat) : Option Stream := (s.fds.find? (·.1 == fd)).map (·.2)

/-- The shell with a descriptor led to a stream. -/
def setFd (s : Session) (fd : Nat) (st : Stream) : Session :=
  { s with fds := s.fds.filter (·.1 != fd) ++ [(fd, st)] }

/-- The shell with a descriptor closed. -/
def closeFd (s : Session) (fd : Nat) : Session := { s with fds := s.fds.filter (·.1 != fd) }

/-- The bytes left in an open input. -/
def inputLeft (s : Session) (id : Nat) : Bytes := ((s.inputs.find? (·.1 == id)).map (·.2)).getD ""

/-- The shell with the bytes left in an open input replaced. -/
def setInput (s : Session) (id : Nat) (rest : Bytes) : Session :=
  { s with inputs := s.inputs.map fun (i, b) => if i == id then (i, rest) else (i, b) }

/-- The shell with a new input opened on bytes, and its number. -/
def openInput (s : Session) (content : Bytes) : Session × Nat :=
  ({ s with inputs := s.inputs ++ [(s.nextInput, content)], nextInput := s.nextInput + 1 },
    s.nextInput)

/-- The shell with a new input opened on a regular file's bytes, and its number. -/
def openFileInput (s : Session) (content : Bytes) : Session × Nat :=
  let (s, id) := s.openInput content
  ({ s with regularInputs := id :: s.regularInputs }, id)

/-- Whether a descriptor reads a regular file. -/
def readsRegularFile (s : Session) (fd : Nat) : Bool :=
  match s.stream? fd with
  | some (.source id) => s.regularInputs.contains id
  | some (.file _) => true
  | _ => false

/-- Bytes written to a stream. A file that is no longer there takes nothing. -/
def write (s : Session) (st : Stream) (b : Bytes) : Session :=
  match st with
  | .out => { s with writes := Channel.push s.writes .out b }
  | .err => { s with writes := Channel.push s.writes .err b }
  | .pipe => { s with pipe := s.pipe ++ b }
  | .file l =>
    match s.files.get? l with
    | some (.file c m) => { s with files := s.files.set l (.file (c ++ b) m) }
    | _ => s
  | .null | .source _ => s

/-- Bytes written to a descriptor; a closed one takes nothing. -/
def emit (s : Session) (fd : Nat) (b : Bytes) : Session :=
  if b.isEmpty then s
  else match s.stream? fd with
    | some st => s.write st b
    | none => s

/-- What a program started by the shell gets on a descriptor it reads, which is then used up. -/
def takeInput (s : Session) (fd : Nat) : Session × Bytes :=
  match s.stream? fd with
  | some (.source id) => (s.setInput id "", s.inputLeft id)
  | some (.file l) =>
    match s.files.get? l with
    | some (.file c _) => (s, c)
    | _ => (s, "")
  | _ => (s, "")

/-- The bytes a descriptor has left to read, without taking them. -/
def peekInput (s : Session) (fd : Nat) : Bytes :=
  match s.stream? fd with
  | some (.source id) => s.inputLeft id
  | _ => ""

/-- The shell after a reader took some bytes of a descriptor's input. -/
def consumeInput (s : Session) (fd : Nat) (n : Nat) : Session :=
  match s.stream? fd with
  | some (.source id) => s.setInput id (String.ofList ((s.inputLeft id).toList.drop n))
  | _ => s

/-- The output of a finished program written to the descriptors it had: its standard output
to 1 and its standard error to 2, in the order it wrote them. -/
def emitWrites (s : Session) (ws : List (Channel × Bytes)) : Session :=
  ws.foldl (fun s (c, b) => s.emit (if c == .out then 1 else 2) b) s

/-- The line messages name: inside a function, counted from its definition. -/
def lineNumber (s : Session) : Nat :=
  if s.funcLine > 0 then s.line + 1 - s.funcLine else s.line

/-- A message on standard error in the shell's own form, `name: line: message`, with the name
of the script file being read after the line. -/
def report (s : Session) (message : Bytes) : Session :=
  let who := match s.commandName with
    | some c => c ++ ": "
    | none => ""
  s.emit 2 (s.name ++ ": " ++ Nat.repr s.lineNumber ++ ": " ++ who ++ message ++ "\n")

/-- A message of a builtin on standard error, `name: line: builtin: message`. -/
def reportAs (s : Session) (builtin message : Bytes) : Session :=
  s.emit 2 (s.name ++ ": " ++ Nat.repr s.lineNumber ++ ": " ++ builtin ++ ": " ++ message ++ "\n")

/-- A message after which the shell ends with status 2. -/
def fatal (s : Session) (message : Bytes) : Session :=
  { s.report message with status := 2, halt := some (.exit 2) }

-- ============================================================================
-- Variables
-- ============================================================================

/-- A shell variable by name. -/
def var? (s : Session) (name : Bytes) : Option Var := s.vars.find? (·.name == name)

/-- The letters of the options that are on, in the shell's order. -/
def optionLetters (s : Session) : Bytes :=
  let o := s.options
  String.ofList ([('e', o.errexit), ('f', o.noglob), ('n', o.noexec), ('x', o.xtrace),
    ('v', o.verbose), ('C', o.noclobber), ('a', o.allexport), ('u', o.nounset)].filterMap
    fun (c, on) => if on then some c else none)

/-- The value of a variable or special parameter; none when it is unset. -/
def lookup (s : Session) (name : Bytes) : Option Bytes :=
  if name == "?" then some (Nat.repr s.status)
  else if name == "$" then some (Nat.repr s.pid)
  else if name == "#" then some (Nat.repr s.params.length)
  else if name == "@" || name == "*" then some (" ".intercalate s.params)
  else if name == "!" then s.background.map Nat.repr
  else if name == "-" then some s.optionLetters
  else if !name.isEmpty && name.all Char.isDigit then
    match name.toNat? with
    | some 0 => some s.name
    | some n => s.params[n - 1]?
    | none => none
  else (s.var? name).bind (·.value)

/-- The shell with a variable's record replaced, or added at the end. -/
def putVar (s : Session) (v : Var) : Session :=
  if s.vars.any (·.name == v.name) then
    { s with vars := s.vars.map fun w => if w.name == v.name then v else w }
  else { s with vars := s.vars ++ [v] }

/-- The shell with a variable set; a read-only one refuses with the shell's message. -/
def assign (s : Session) (name value : Bytes) : Except Bytes Session :=
  match s.var? name with
  | some v =>
    if v.readonly then .error (name ++ ": is read only")
    else
      let exported := v.exported || s.options.allexport
      .ok (s.putVar { v with name := name, value := some value, exported := exported })
  | none => .ok (s.putVar { name := name, value := some value, exported := s.options.allexport })

/-- The shell with a variable unset; a read-only one refuses. -/
def unsetVar (s : Session) (name : Bytes) : Except Bytes Session :=
  match s.var? name with
  | some v =>
    if v.readonly then .error (name ++ ": is read only")
    else .ok { s with vars := s.vars.filter (·.name != name) }
  | none => .ok s

/-- The shell with a variable marked for export. -/
def markExported (s : Session) (name : Bytes) : Session :=
  match s.var? name with
  | some v => s.putVar { v with exported := true }
  | none => s.putVar { name, value := none, exported := true }

/-- The shell with a variable made read-only. -/
def markReadonly (s : Session) (name : Bytes) : Session :=
  match s.var? name with
  | some v => s.putVar { v with readonly := true }
  | none => s.putVar { name, value := none, readonly := true }

/-- The variables a program started by the shell gets, with assignments for it alone added. -/
def environment (s : Session) (extra : List (Bytes × Bytes)) : List (Bytes × Bytes) :=
  let base := s.vars.filterMap fun v =>
    if v.exported && !(extra.any (·.1 == v.name)) then v.value.map (v.name, ·) else none
  base ++ extra

/-- The text of the working directory. -/
def cwdText (s : Session) : Bytes := "/" ++ "/".intercalate s.cwd

/-- The permission bits of a file the shell creates. -/
def createMode (s : Session) : Nat := 0o666 &&& (0o7777 ^^^ s.umask)

theorem var?_putVar (s : Session) (v : Var) : (s.putVar v).var? v.name = some v := by
  unfold putVar var?
  split
  · rename_i hany
    rw [List.find?_map]
    have hpred : ((fun x : Var => x.name == v.name) ∘
        fun w => if (w.name == v.name) = true then v else w) = fun x => x.name == v.name := by
      funext x
      by_cases hx : x.name = v.name <;> simp [hx]
    rw [hpred]
    have hsome : s.vars.find? (·.name == v.name) ≠ none := by
      rw [ne_eq, List.find?_eq_none]
      intro hall
      obtain ⟨e, he, hel⟩ := List.any_eq_true.mp hany
      exact hall e he hel
    obtain ⟨x, hx⟩ := Option.ne_none_iff_exists'.mp hsome
    rw [hx]
    have hp : x.name = v.name := by simpa using List.find?_some hx
    simp [hp]
  · rename_i hany
    have hnone : s.vars.find? (·.name == v.name) = none := by
      rw [List.find?_eq_none]
      intro x hx hxl
      exact hany (List.any_eq_true.mpr ⟨x, hx, hxl⟩)
    rw [List.find?_append, hnone]
    simp

theorem lookup_assign (s s' : Session) (n v : Bytes) (h : s.assign n v = .ok s')
    (hs : n ∉ ["?", "$", "#", "@", "*", "!", "-"]) (hd : ¬ n.all Char.isDigit) :
    s'.lookup n = some v := by
  simp only [List.mem_cons, List.not_mem_nil, or_false, not_or] at hs
  obtain ⟨h1, h2, h3, h4, h5, h6, h7⟩ := hs
  have key : ∃ w : Var, w.name = n ∧ w.value = some v ∧ s' = s.putVar w := by
    unfold assign at h
    split at h
    · split at h
      · simp at h
      · simp only [Except.ok.injEq] at h
        exact ⟨_, rfl, rfl, h.symm⟩
    · simp only [Except.ok.injEq] at h
      exact ⟨_, rfl, rfl, h.symm⟩
  obtain ⟨w, hw, hv, rfl⟩ := key
  have hget := var?_putVar s w
  rw [hw] at hget
  simp [lookup, h1, h2, h3, h4, h5, h6, h7, hd, hget, hv]

theorem emit_null (s : Session) (fd : Nat) (b : Bytes) (h : s.stream? fd = some .null) :
    s.emit fd b = s := by
  unfold emit
  split
  · rfl
  · simp [h, write]

end Session

end BuildRecipe.Shell
