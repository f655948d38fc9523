import BuildRecipe.Shell.Builtin
import BuildRecipe.Shell.Arith
import BuildRecipe.Shell.Fields
import BuildRecipe.Utility.Run
/-!
# Running shell commands

A shell reads its command text one complete line at a time and runs each line before it reads
the next, so a syntax fault further on still lets the lines before it run. The fault ends the
shell with status 2 and `sh: line: Syntax error: …`.

**Simple commands.** The words are expanded into fields, then the redirections are applied,
then the assignments are expanded and made one after another, then the command runs. With no
words the assignments stay and the status is that of the last command substitution. Before a
special builtin they stay too; before a function, another builtin or a program they hold for
that command alone, exported. The first field names, in this order, a special builtin, a
function, another builtin, or a program looked up in `PATH`.

**Expansion.** Parameters, command substitutions (run in a subshell writing into a pipe, their
trailing newlines dropped) and arithmetic are expanded; the results outside double quotes are
split at the bytes of `IFS` and then replaced by the paths they match. An error in an expansion
(an unset parameter under `set -u`, `${x?}`, a bad arithmetic expression, a read-only variable)
ends the shell with status 2.

**Subshells.** A subshell `( … )`, each stage of a pipeline, a command substitution and a list
run in the background run in a copy of the shell: their variables, folder and descriptors are
dropped afterwards, their files and output are kept. The stages of a pipeline run one after
another, each reading what the one before wrote.

**Errors and signals.** A redirection that cannot be opened is status 2, and ends the shell
before a special builtin. Under `set -e` a failing simple command, subshell or pipeline that is
not a condition ends the shell. A program killed by a signal is reported with the signal's
description, except an interrupt or a broken pipe, unless it was the last command of a `sh -c`
text: then the shell is replaced by it and ends the same way. A trap on `EXIT` runs when the
shell ends.

**Fuel.** Running is built level by level: `runner (n + 1)` runs a command with what
`runner n` does for the commands inside it. Each level also bounds the rounds of a loop, so
running always ends; when the levels are used up the shell stops as a crash would.

Main statements: the levels unfold as said (`runner_succ`), and a command text with nothing
in it leaves the shell as it was (`runText_blank`).
-/

namespace BuildRecipe.Shell

/-- The outcome of an expansion: the shell after it with what it gave, or the shell at the
error that ends it, with the message. -/
abbrev Expanding (α : Type) := Except (Session × Bytes) (Session × α)

/-- How a command is run: as the last command of its process (which may then be replaced by a
program), and as a condition (where `set -e` does not apply). -/
structure Flags where
  last : Bool
  tested : Bool
  deriving DecidableEq, Repr, Inhabited

/-- What running a command calls on for the commands inside it, one level of fuel below. -/
structure Runner where
  /-- How many rounds a loop may run. -/
  budget : Nat
  /-- Run command lists. -/
  lists : Session → Flags → List AndOr → Session
  /-- Run one command. -/
  command : Session → Flags → Command → Session
  /-- Expand the parts of a word. -/
  parts : Session → List Part → Expanding (List Piece)
  /-- Run a text as commands of the shell; the last may end the process when `last`. -/
  text : Session → Flags → Bytes → Session
  /-- Run the shell as a program. -/
  shell : Invocation → FileTree → Completion

/-- The signal a shell dies of when its fuel is used up, as it would of too deep a recursion. -/
def crashSignal : Nat := 11

/-- The runner with no fuel left: everything ends as a crash. -/
def Runner.exhausted : Runner where
  budget := 0
  lists s _ _ := { s with halt := some (.signal crashSignal) }
  command s _ _ := { s with halt := some (.signal crashSignal) }
  parts s _ := .error ({ s with halt := some (.signal crashSignal) }, "")
  text s _ _ := { s with halt := some (.signal crashSignal) }
  shell _ files := { exit := .signal crashSignal, files }

-- ============================================================================
-- Pieces of expansions
-- ============================================================================

/-- The bytes of pieces as one text: parameters of `$@` joined by blanks. -/
def piecesText (ps : List Piece) : Bytes :=
  String.ofList (ps.filterMap fun p =>
    match p with
    | .byte e => some e.c
    | .cut | .softCut => some ' '
    | .mark => none)

/-- The pieces as a pattern: quoted bytes match themselves. -/
def piecesPattern (ps : List Piece) : List PatChar :=
  ps.filterMap fun p =>
    match p with
    | .byte e => some ⟨e.c, e.quoted⟩
    | .cut | .softCut => some ⟨' ', true⟩
    | .mark => none

/-- The bytes an expansion gives: inside double quotes quoted, with a mark that keeps an empty
field; outside them open to splitting and to pathname expansion. -/
def expansionPieces (b : Bytes) (inQuotes : Bool) : List Piece :=
  if inQuotes then .mark :: Piece.ofBytes b true false else Piece.ofBytes b false true

/-- The pieces of `$@` and `$*`: inside double quotes `$@` gives one field for each parameter
and `$*` one field of them joined by the first byte of `IFS`; outside them each parameter is
split on its own. -/
def listPieces (s : Session) (name : Bytes) (inQuotes : Bool) : List Piece :=
  if inQuotes then
    if name == "@" then
      ((s.params.map fun p => .mark :: Piece.ofBytes p true false).intersperse [.cut]).flatten
    else
      let sep := match s.lookup "IFS" with
        | some ifs => ifs.toList.take 1
        | none => [' ']
      .mark :: Piece.ofBytes (String.ofList (sep.intercalate (s.params.map String.toList))) true false
  else ((s.params.map fun p => Piece.ofBytes p false true).intersperse [.softCut]).flatten

/-- The home folder a tilde prefix names: `HOME` for `~`, `/root` for `~root`. -/
def homeOf (s : Session) (user : Bytes) : Option Bytes :=
  if user.isEmpty then s.lookup "HOME" else if user == "root" then some "/root" else none

/-- A word with its leading tilde prefix, up to the first `/`, replaced by the home folder it
names. -/
def expandTilde (s : Session) : Word → Word
  | .literal t :: rest =>
    if t.startsWith "~" then
      let cs := t.toList.drop 1
      let user := cs.takeWhile (· != '/')
      let after := cs.drop user.length
      if after.isEmpty && !rest.isEmpty then .literal t :: rest
      else
        match homeOf s (String.ofList user) with
        | some home =>
          .quoted home :: (if after.isEmpty then rest else .literal (String.ofList after) :: rest)
        | none => .literal t :: rest
    else .literal t :: rest
  | w => w

/-- Text with its trailing newlines taken away. -/
def dropTrailingNewlines (b : Bytes) : Bytes :=
  String.ofList (b.toList.reverse.dropWhile (· == '\n')).reverse

-- ============================================================================
-- Subshells and waiting
-- ============================================================================

namespace Session

/-- The shell a subshell of it starts as: a process of its own, with the traps dropped except
those that ignore a signal. -/
def subshell (s : Session) : Session :=
  { s with
    selfPid := s.nextPid
    nextPid := s.nextPid + 1
    ancestors := s.selfPid :: s.ancestors
    traps := s.traps.filter (·.2.isEmpty)
    halt := none
    pendingTraps := []
    signalsSent := [] }

/-- How a shell process ended. -/
def exitOf (s : Session) : Exit :=
  match s.halt with
  | some (.exit n) => .code (n % 256)
  | some (.returnFrom n) => .code (n % 256)
  | some (.signal k) => .signal k
  | _ => .code (s.status % 256)

/-- The shell after a subshell of it ended: the files, the output, what was read and the
numbers given out are the subshell's, the rest is the shell's own; a signal the subshell sent
the shell reaches it. -/
def leave (s child : Session) : Session :=
  let s := { s with
    files := child.files
    writes := child.writes
    inputs := child.inputs
    nextInput := child.nextInput
    nextPid := child.nextPid
    pipe := child.pipe }
  child.signalsSent.foldl (fun s (pid, sig) =>
    if pid == s.selfPid then s.receive sig
    else { s with signalsSent := s.signalsSent ++ [(pid, sig)] }) s

/-- Whether the shell has a trap that runs commands. -/
def hasTraps (s : Session) : Bool := s.traps.any (!·.2.isEmpty)

/-- The shell after waiting for a child that ended so: its status and, for a child killed by a
signal, the signal's description (not for an interrupt or a broken pipe). When the child was
the shell's last command the shell had become it, and ends the same way. -/
def waited (s : Session) (flags : Flags) (e : Exit) : Session :=
  match e with
  | .code n => s.withStatus n
  | .signal k =>
    if flags.last && !s.hasTraps then { s with status := 128 + k, halt := some (.signal k) }
    else
      let s := if k == 2 || k == 13 then s else s.emit 2 (signalText k ++ "\n")
      s.withStatus (128 + k)

/-- Under `set -e`, a failing command that is not a condition ends the shell. -/
def checkExit (s : Session) (flags : Flags) : Session :=
  if s.options.errexit && !flags.tested && s.status != 0 && s.halt.isNone then
    { s with halt := some (.exit s.status) }
  else s

/-- The shell with a descriptor reading bytes. -/
def openOn (s : Session) (fd : Nat) (b : Bytes) : Session :=
  let (s, id) := s.openInput b
  s.setFd fd (.source id)

/-- The shell with standard input read from bytes. -/
def feed (s : Session) (b : Bytes) : Session := s.openOn 0 b

/-- The shell with the descriptors a redirection touched led back where they were. -/
def restoreFds (s : Session) (saved : List (Nat × Stream)) (touched : List Nat) : Session :=
  touched.foldl (fun s fd =>
    match saved.find? (·.1 == fd) with
    | some (_, st) => s.setFd fd st
    | none => s.closeFd fd) s

/-- The shell with variables set for one command, to be put back after it: the records they
had before. -/
def saveVars (s : Session) (names : List Bytes) : List (Bytes × Option Var) :=
  names.map fun n => (n, s.var? n)

/-- The shell with saved variable records put back, a variable that had none removed. -/
def restoreVars (s : Session) (saved : List (Bytes × Option Var)) : Session :=
  saved.reverse.foldl (fun s (n, old) =>
    match old with
    | some v => s.putVar v
    | none => { s with vars := s.vars.filter (·.name != n) }) s

/-- The line `set -x` writes for a command: `PS4`, then the assignments and the fields. -/
def traceLine (s : Session) (pairs : List (Bytes × Bytes)) (argv : List Bytes) : Bytes :=
  (s.lookup "PS4").getD "+ " ++ " ".intercalate (pairs.map (fun (n, v) => n ++ "=" ++ v) ++ argv) ++
    "\n"

end Session

/-- What a loop makes of how a round of it stopped. -/
inductive LoopFlow where
  /-- The round ran to its end. -/
  | normal
  /-- `continue` for this loop: the next round. -/
  | again
  /-- `break`, or something that leaves more than this loop. -/
  | stop
  deriving DecidableEq, Repr, Inhabited

/-- The shell after a loop took its part of a `break` or `continue`, and what the loop does. -/
def loopControl (s : Session) : Session × LoopFlow :=
  match s.halt with
  | some (.breakLoop n) =>
    if n > 1 then ({ s with halt := some (.breakLoop (n - 1)) }, .stop)
    else ({ s with halt := none }, .stop)
  | some (.continueLoop n) =>
    if n > 1 then ({ s with halt := some (.continueLoop (n - 1)) }, .stop)
    else ({ s with halt := none }, .again)
  | some _ => (s, .stop)
  | none => (s, .normal)

-- ============================================================================
-- Expansion
-- ============================================================================

/-- A parameter expansion, its word expanded by the level below. -/
def expandParam (r : Runner) (s : Session) (name : Bytes) (op : ParamOp) (word : Word)
    (q : Bool) : Expanding (List Piece) :=
  let value := s.lookup name
  let isList := name == "@" || name == "*"
  let unsetError (s : Session) : Expanding (List Piece) := .error (s, name ++ ": parameter not set")
  let plainOf (s : Session) : Expanding (List Piece) :=
    if isList then .ok (s, listPieces s name q)
    else
      match s.lookup name with
      | some v => .ok (s, expansionPieces v q)
      | none => if s.options.nounset then unsetError s else .ok (s, if q then [.mark] else [])
  let isSet := if isList then !s.params.isEmpty else value.isSome
  let nonNull := isSet && !(value.getD "").isEmpty
  let chosen (nullToo : Bool) : Bool := if nullToo then nonNull else isSet
  let wordPieces (s : Session) : Expanding (List Piece) :=
    match r.parts s word with
    | .ok (s, ps) => .ok (s, if q then .mark :: ps else ps)
    | .error e => .error e
  match op with
  | .plain => plainOf s
  | .length =>
    match value with
    | some v =>
      -- the length of a list is that of its parameters joined by the first byte of `IFS`
      let sep := match s.lookup "IFS" with
        | some ifs => ifs.toList.take 1
        | none => [' ']
      let joined := sep.intercalate (s.params.map String.toList)
      .ok (s, expansionPieces (Nat.repr (if isList then joined.length else v.length)) q)
    | none => if s.options.nounset then unsetError s else .ok (s, expansionPieces "0" q)
  | .useDefault nullToo => if chosen nullToo then plainOf s else wordPieces s
  | .assignDefault nullToo =>
    if chosen nullToo then plainOf s
    else
      match r.parts s word with
      | .error e => .error e
      | .ok (s, ps) =>
        if !isName name then .error (s, name ++ ": bad variable name")
        else
          match s.setVar name (piecesText ps) with
          | .ok s => plainOf s
          | .error e => .error (s, e)
  | .errorIfUnset nullToo =>
    if chosen nullToo then plainOf s
    else if word.isEmpty then
      .error (s, name ++ ": parameter not set" ++ (if nullToo then " or null" else ""))
    else
      match r.parts s word with
      | .ok (s, ps) => .error (s, name ++ ": " ++ piecesText ps)
      | .error e => .error e
  | .useAlternative nullToo =>
    if chosen nullToo then wordPieces s else .ok (s, if q then [.mark] else [])
  | .removeSuffix longest =>
    if value.isNone && s.options.nounset then unsetError s
    else
      match r.parts s word with
      | .error e => .error e
      | .ok (s, ps) => .ok (s, expansionPieces (removeSuffix (piecesPattern ps) longest (value.getD "")) q)
  | .removePrefix longest =>
    if value.isNone && s.options.nounset then unsetError s
    else
      match r.parts s word with
      | .error e => .error e
      | .ok (s, ps) => .ok (s, expansionPieces (removePrefix (piecesPattern ps) longest (value.getD "")) q)
  | .bad => .error (s, "Bad substitution")

/-- The EXIT trap of a shell that is ending, run once, and the way the shell ends: the status it
ends with stays unless the trap exits. -/
def finishShell (r : Runner) (s : Session) : Session :=
  match s.halt with
  | some (.signal _) => s
  | _ =>
    let code := match s.halt with
      | some (.exit n) => n
      | some (.returnFrom n) => n
      | _ => s.status
    match s.traps.find? (·.1 == 0) with
    | some (_, action) =>
      if action.isEmpty then { s with halt := some (.exit code) }
      else
        let s := { s with halt := none, status := code, traps := s.traps.filter (·.1 != 0) }
        let s := r.text s ⟨false, false⟩ action
        match s.halt with
        | some (.exit _) | some (.signal _) => s
        | _ => { s with halt := some (.exit code) }
    | none => { s with halt := some (.exit code) }

/-- A command substitution: the body run in a subshell writing into a pipe, and what it wrote
without its trailing newlines. -/
def substitute (r : Runner) (s : Session) (body : List AndOr) : Session × Bytes :=
  let child := { s.subshell with pipe := "" }.setFd 1 .pipe
  let child := finishShell r (r.lists child ⟨true, false⟩ body)
  let out := child.pipe
  let e := child.exitOf
  let s := { s.leave child with pipe := s.pipe, substStatus := e.status }
  let s := match e with
    | .signal k => if k == 2 || k == 13 then s else s.emit 2 (signalText k ++ "\n")
    | .code _ => s
  (s, dropTrailingNewlines out)

/-- One part of a word expanded. -/
def expandPart (r : Runner) (s : Session) : Part → Expanding (List Piece)
  | .literal t => .ok (s, Piece.ofBytes t false false)
  | .quoted t => .ok (s, .mark :: Piece.ofBytes t true false)
  | .param name op word q => expandParam r s name op word q
  | .command body q =>
    let (s, out) := substitute r s body
    .ok (s, expansionPieces out q)
  | .arith expr q =>
    match r.parts s expr with
    | .error e => .error e
    | .ok (s, ps) =>
      let text := piecesText ps
      match evaluate text s.lookup with
      | .error e => .error (s, e.message text)
      | .ok (v, assigned) =>
        match s.setAll assigned with
        | .ok s => .ok (s, expansionPieces (intText v) q)
        | .error e => .error (s, e)

/-- The parts of a word expanded in order. -/
def expandParts (r : Runner) : Session → List Part → Expanding (List Piece)
  | s, [] => .ok (s, [])
  | s, p :: rest =>
    match expandPart r s p with
    | .error e => .error e
    | .ok (s, ps) =>
      if s.halt.isSome then .error (s, "")
      else
        match expandParts r s rest with
        | .ok (s, qs) => .ok (s, ps ++ qs)
        | .error e => .error e

/-- A word expanded to one text: tilde, parameters, substitutions, no splitting or pathname
expansion. -/
def expandText (r : Runner) (s : Session) (w : Word) : Expanding Bytes :=
  match expandParts r s (expandTilde s w) with
  | .ok (s, ps) => .ok (s, piecesText ps)
  | .error e => .error e

/-- A word expanded to a pattern. -/
def expandPattern (r : Runner) (s : Session) (w : Word) : Expanding (List PatChar) :=
  match expandParts r s (expandTilde s w) with
  | .ok (s, ps) => .ok (s, piecesPattern ps)
  | .error e => .error e

/-- A word expanded to fields: split at `IFS` and replaced by the paths they match. -/
def expandFields (r : Runner) (s : Session) (w : Word) : Expanding (List Bytes) :=
  match expandParts r s (expandTilde s w) with
  | .error e => .error e
  | .ok (s, ps) =>
    let ifs := ((s.lookup "IFS").getD " \t\n").toList
    .ok (s, (splitFields ifs ps).flatMap (expandPath s.files s.cwd s.options.noglob))

/-- The words of a command expanded to fields. After `export`, `readonly` or `local` a word that
is an assignment is expanded as one text. -/
def expandArgs (r : Runner) (declaration : Bool) : Session → List Word → Expanding (List Bytes)
  | s, [] => .ok (s, [])
  | s, w :: rest =>
    let one : Expanding (List Bytes) :=
      match declaration, w.assignment? with
      | true, some (name, value) =>
        match expandText r s value with
        | .ok (s, v) => .ok (s, [name ++ "=" ++ v])
        | .error e => .error e
      | _, _ => expandFields r s w
    match one with
    | .error e => .error e
    | .ok (s, fs) =>
      match expandArgs r declaration s rest with
      | .ok (s, more) => .ok (s, fs ++ more)
      | .error e => .error e

-- ============================================================================
-- Redirections
-- ============================================================================

/-- The descriptor a redirection works on. -/
def Redirect.fd : Redirect → Nat
  | .file fd _ _ => fd
  | .here fd _ => fd

/-- Why a file cannot be created, in the shell's words. -/
def createFault : IoFault → Bytes
  | .notFound | .notADirectory => "Directory nonexistent"
  | .isADirectory => "Is a directory"
  | .permissionDenied => "Permission denied"
  | f => f.text

/-- Why a file cannot be opened to read, in the shell's words. -/
def openFault : IoFault → Bytes
  | .notFound | .notADirectory => "No such file"
  | f => f.text

/-- The descriptor a device path stands for: `/dev/stdin`, `/dev/stdout`, `/dev/stderr` and
`/dev/fd/N`. -/
def deviceFd? (p : Bytes) : Option Nat :=
  if p == "/dev/stdin" then some 0
  else if p == "/dev/stdout" then some 1
  else if p == "/dev/stderr" then some 2
  else if p.startsWith "/dev/fd/" then (String.ofList (p.toList.drop 8)).toNat?
  else none

namespace Session

/-- A descriptor led where another leads; an error when that one is not open. -/
def dupFd (s : Session) (fd target : Nat) : Except Bytes Session :=
  match s.stream? target with
  | some st => .ok (s.setFd fd st)
  | none => .error (Nat.repr target ++ ": Bad file descriptor")

/-- A descriptor opened on a file for a redirection, or the message of why it cannot be. -/
def openRedirect (s : Session) (fd : Nat) (kind : RedirKind) (path : Bytes) : Except Bytes Session :=
  let text := path.toText
  let locationOf (s : Session) : Except Bytes Session :=
    match s.files.resolve s.cwd text with
    | .ok r => .ok (s.setFd fd (.file r.location))
    | .error e => .error ("cannot create " ++ path ++ ": " ++ createFault e)
  match kind with
  | .input | .readWrite =>
    if path == "/dev/null" || path == "/dev/zero" then .ok (s.openOn fd "")
    else
      match deviceFd? path with
      | some n => s.dupFd fd n
      | none =>
        match s.files.readFile s.cwd text with
        | .ok content =>
          let (s, id) := s.openFileInput content
          .ok (s.setFd fd (.source id))
        | .error .isADirectory =>
          let (s, id) := s.openInput ""
          .ok (s.setFd fd (.source id))
        | .error e =>
          if kind == .readWrite then
            match s.files.writeFileWith s.cwd text "" s.createMode with
            | .ok files =>
              let (s, id) := { s with files }.openInput ""
              .ok (s.setFd fd (.source id))
            | .error e => .error ("cannot create " ++ path ++ ": " ++ createFault e)
          else .error ("cannot open " ++ path ++ ": " ++ openFault e)
  | .output | .clobber | .append =>
    if path == "/dev/null" || path == "/dev/zero" then .ok (s.setFd fd .null)
    else
      match deviceFd? path with
      | some n => s.dupFd fd n
      | none =>
        let exists_ := match s.files.metadata s.cwd text with
          | .ok (.file _ _) | .ok (.executable _) => true
          | _ => false
        if kind == .output && s.options.noclobber && exists_ then
          .error ("cannot create " ++ path ++ ": File exists")
        else
          let written := if kind == .append then s.files.appendFile s.cwd text "" s.createMode
            else s.files.writeFileWith s.cwd text "" s.createMode
          match written with
          | .ok files => locationOf { s with files }
          | .error e => .error ("cannot create " ++ path ++ ": " ++ createFault e)
  | .dupInput | .dupOutput =>
    if path == "-" then .ok (s.closeFd fd)
    else
      match path.toList with
      | [d] => if d.isDigit then s.dupFd fd (d.toNat - 48) else .error "Bad fd number"
      | _ => .error "Bad fd number"

end Session

/-- Redirections applied in order: the shell after them, and whether one could not be opened
(reported, status 2). An error in expanding a target ends the shell. -/
def applyRedirs (r : Runner) : Session → List Redirect → Session × Bool
  | s, [] => (s, false)
  | s, rd :: rest =>
    let opened : Except (Session × Bytes × Bool) Session :=
      match rd with
      | .file fd kind target =>
        match expandText r s target with
        | .error (s, m) => .error (s, m, true)
        | .ok (s, path) =>
          let dup := kind == .dupInput || kind == .dupOutput
          let valid := path == "-" || (match path.toList with
            | [d] => d.isDigit
            | _ => false)
          if dup && !valid then .error (s, "Syntax error: Bad fd number", true)
          else
            match s.openRedirect fd kind path with
            | .ok s => .ok s
            | .error m => .error (s, m, false)
      | .here fd body =>
        let word := ((s.bodies.find? (·.1 == body)).map (·.2)).getD []
        match expandParts r s word with
        | .error (s, m) => .error (s, m, true)
        | .ok (s, ps) => .ok (s.openOn fd (piecesText ps))
    match opened with
    | .ok s => applyRedirs r s rest
    | .error (s, m, fatal) =>
      if fatal then (if s.halt.isSome then s else s.fatal m, true)
      else ({ s.report m with status := 2 }, true)

/-- Run something with redirections for it alone; when one cannot be opened it does not run and
the status is 2. -/
def withRedirs (r : Runner) (s : Session) (redirs : List Redirect) (run : Session → Session) :
    Session :=
  if redirs.isEmpty then run s
  else
    let saved := s.fds
    let touched := redirs.map Redirect.fd
    match applyRedirs r s redirs with
    | (s, true) => if s.halt.isSome then s else s.restoreFds saved touched
    | (s, false) => (run s).restoreFds saved touched

-- ============================================================================
-- Compound commands
-- ============================================================================

/-- The arms of an `if`: the body after the first condition that succeeds, else the `else` part;
status 0 when nothing runs. -/
def runBranches (r : Runner) (flags : Flags) : Session → List Branch → Option (List AndOr) → Session
  | s, [], otherwise =>
    match otherwise with
    | some body => r.lists s flags body
    | none => s.withStatus 0
  | s, .mk cond body :: rest, otherwise =>
    let s := r.lists s ⟨false, true⟩ cond
    if s.halt.isSome then s
    else if s.status == 0 then r.lists s flags body
    else runBranches r flags s rest otherwise

/-- The rounds of a `while` (or `until`) loop, at most `rounds` of them, `st` the status of the
last body run. -/
def runLoop (r : Runner) (flags : Flags) (untilZero : Bool) (cond body : List AndOr) :
    Nat → Session → Nat → Session
  | 0, s, st => s.withStatus st
  | rounds + 1, s, st =>
    let s := r.lists s ⟨false, true⟩ cond
    match loopControl s with
    | (s, .stop) => if s.halt.isSome then s else s.withStatus st
    | (s, .again) => runLoop r flags untilZero cond body rounds s st
    | (s, .normal) =>
      if (s.status == 0) == untilZero then s.withStatus st
      else
        let s := r.lists s ⟨false, flags.tested⟩ body
        let st := s.status
        match loopControl s with
        | (s, .stop) => s
        | (s, _) => runLoop r flags untilZero cond body rounds s st

/-- The rounds of a `for` loop over values, `st` the status of the last body run. -/
def runFor (r : Runner) (flags : Flags) (name : Bytes) (body : List AndOr) :
    List Bytes → Session → Nat → Session
  | [], s, st => s.withStatus st
  | v :: rest, s, _ =>
    match s.setVar name v with
    | .error e => s.fatal e
    | .ok s =>
      let s := r.lists s ⟨false, flags.tested⟩ body
      match loopControl s with
      | (s, .stop) => s
      | (s, _) => runFor r flags name body rest s s.status

/-- Whether one of the patterns of a `case` arm matches the text, the patterns expanded in order
until one does. -/
def armMatches (r : Runner) (text : Bytes) : Session → List Word → Expanding Bool
  | s, [] => .ok (s, false)
  | s, p :: rest =>
    match expandPattern r s p with
    | .error e => .error e
    | .ok (s, pat) => if matchText pat text.toList then .ok (s, true) else armMatches r text s rest

/-- The arms of a `case`: the body of the first whose pattern matches; status 0 when none does
or the body is empty. -/
def caseArms (r : Runner) (flags : Flags) (text : Bytes) : Session → List CaseArm → Session
  | s, [] => s.withStatus 0
  | s, .mk pats body :: rest =>
    match armMatches r text s pats with
    | .error (s, m) => s.fatal m
    | .ok (s, true) => if body.isEmpty then s.withStatus 0 else r.lists s flags body
    | .ok (s, false) => caseArms r flags text s rest

/-- A subshell: the body run in a copy of the shell, its redirections applied there. -/
def runSubshell (r : Runner) (s : Session) (flags : Flags) (body : List AndOr)
    (redirs : List Redirect) : Session :=
  let (child, failed) := applyRedirs r s.subshell redirs
  let child := if child.halt.isSome then child
    else if failed then { child with halt := some (.exit 2) }
    else r.lists child ⟨true, flags.tested⟩ body
  let child := finishShell r child
  ((s.leave child).waited flags child.exitOf).checkExit flags

/-- A function called with arguments: its positional parameters, loops, local variables and
place for `getopts` are its own, and `return` ends it. -/
def callFunction (r : Runner) (s : Session) (flags : Flags) (body : Command) (defLine : Nat)
    (args : List Bytes) : Session :=
  let outer := s
  let s := { s with
    params := args
    loops := 0
    funcLine := defLine
    funcDepth := s.funcDepth + 1
    locals := [] :: s.locals
    optIndex := 1
    optOffset := none }
  let s := r.command s ⟨false, flags.tested⟩ body
  let s := match s.halt with
    | some (.returnFrom n) => { s with halt := none, status := n }
    | _ => s
  let (frame, rest) := match s.locals with
    | f :: more => (f, more)
    | [] => ([], [])
  let s := frame.foldl (fun s v =>
    if v.value.isNone && !v.exported && !v.readonly then
      { s with vars := s.vars.filter (·.name != v.name) }
    else s.putVar v) { s with locals := rest }
  { s with
    params := outer.params
    loops := outer.loops
    funcLine := outer.funcLine
    funcDepth := outer.funcDepth
    optIndex := outer.optIndex
    optOffset := outer.optOffset }

-- ============================================================================
-- Programs
-- ============================================================================

/-- The interpreter a script names on its first line `#!path [arg]`. -/
def shebang (content : Bytes) : Option (Bytes × Option Bytes) :=
  if content.startsWith "#!" then
    let line := (content.toList.drop 2).takeWhile (· != '\n')
    let line := line.dropWhile (fun c => c == ' ' || c == '\t')
    let path := line.takeWhile (fun c => c != ' ' && c != '\t')
    let rest := (line.drop path.length).dropWhile (fun c => c == ' ' || c == '\t')
    let rest := (rest.reverse.dropWhile (fun c => c == ' ' || c == '\t')).reverse
    some (String.ofList path, if rest.isEmpty then none else some (String.ofList rest))
  else none

/-- A file of the machine run as a program: a utility, or a script run by the interpreter its
first line names, or by the shell; none when the interpreter is not there. -/
def runNode (r : Runner) (node : Node) (path : Bytes) (inv : Invocation) (files : FileTree) :
    Option Completion :=
  let runUtility (u : Utility) (inv : Invocation) : Completion :=
    if u == .shell then r.shell inv files else Utility.runFile u inv files
  match node with
  | .executable u => some (runUtility u inv)
  | .directory => none
  | .file content _ =>
    match shebang content with
    | some (interp, arg) =>
      match nodeAt files inv.cwd interp with
      | some (.executable u) =>
        some (runUtility u { inv with program := interp, args := arg.toList ++ [path] ++ inv.args })
      | _ => none
    | none => some (r.shell { inv with program := "/bin/sh", args := path :: inv.args } files)

/-- A program looked up and run with the shell's descriptors: its standard input is what fd 0
has left, its output goes to fds 1 and 2. -/
def runExternal (r : Runner) (s : Session) (flags : Flags) (argv : List Bytes) : Session :=
  match argv with
  | [] => s
  | name :: args =>
    match locate s.files s.cwd ((s.lookup "PATH").getD "") name with
    | .missing => (s.report (name ++ ": not found")).withStatus 127
    | .denied => (s.report (name ++ ": Permission denied")).withStatus 126
    | .found path node =>
      let s := if name.contains '/' then s else s.remember name path
      let stdinRegular := s.readsRegularFile 0
      let (s, stdin) := s.takeInput 0
      let inv : Invocation := {
        program := name, args, stdin, cwd := s.cwd, env := s.environment [], umask := s.umask,
        stdinRegular }
      match runNode r node path inv s.files with
      | none => (s.report (name ++ ": not found")).withStatus 127
      | some done =>
        let s := ({ s with files := done.files }).emitWrites done.writes
        s.waited flags done.exit

/-- The shell as replaced by a program, `exec name args`: it ends as the program does. -/
def execProgram (r : Runner) (s : Session) (c : Call) (argv : List Bytes) : Session :=
  match argv with
  | [] => s.withStatus 0
  | name :: _ =>
    match locate s.files s.cwd ((s.lookup "PATH").getD "") name with
    | .missing => { s.reportAs c.name (name ++ ": not found") with status := 127, halt := some (.exit 127) }
    | .denied =>
      { s.reportAs c.name (name ++ ": Permission denied") with status := 126, halt := some (.exit 126) }
    | .found _ _ =>
      let s := runExternal r s ⟨true, false⟩ argv
      match s.halt with
      | some _ => s
      | none => { s with halt := some (.exit s.status) }

/-- A builtin run by name: `eval`, `.`, `exec` and `command` run commands, the others act on
the shell alone. -/
def runBuiltin (r : Runner) (s : Session) (flags : Flags) (c : Call) (args : List Bytes) : Session :=
  match c.name with
  | "eval" =>
    let args := match args with
      | "--" :: rest => rest
      | _ => args
    if args.isEmpty then s.withStatus 0
    else r.text (s.withStatus 0) ⟨false, flags.tested⟩ (" ".intercalate args)
  | "." =>
    match args with
    | [] => s.withStatus 0
    | file :: _ =>
      let found := if file.contains '/' then some file
        else ((s.lookup "PATH").getD "").splitOn ":" |>.map (inFolder · file) |>.find? fun p =>
          match nodeAt s.files s.cwd p with
          | some (.file _ _) => true
          | _ => false
      match found with
      | none => s.failIn c (file ++ ": not found")
      | some p =>
        match s.files.readFile s.cwd p.toText with
        | .error e => s.failIn c ("cannot open " ++ p ++ ": " ++ openFault e)
        | .ok content =>
          let outerName := s.commandName
          let s := r.text { s with commandName := some p, status := 0 } ⟨false, false⟩ content
          let s := match s.halt with
            | some (.returnFrom n) => { s with halt := none, status := n }
            | _ => s
          { s with commandName := outerName }
  | "exec" => execProgram r s c args
  | "command" =>
    match readOptions ['p', 'v', 'V'] [] args with
    | .error e => s.failIn c e
    | .ok (opts, rest) =>
      if opts.any (·.1 == 'v') then
        match rest with
        | n :: _ => s.describeCommand n false
        | [] => s.withStatus 0
      else if opts.any (·.1 == 'V') then
        match rest with
        | n :: _ => s.describeCommand n true
        | [] => s.withStatus 0
      else
        match rest with
        | [] => s.withStatus 0
        | name :: more =>
          if specialBuiltinNames.contains name || regularBuiltinNames.contains name then
            match name with
            | "eval" | "." | "exec" | "command" => s
            | _ => ((s.builtin? ⟨name, false⟩ more).getD s)
          else runExternal r s flags rest
  | _ => (s.builtin? c args).getD (s.withStatus 0)

-- ============================================================================
-- Simple commands
-- ============================================================================

/-- What the first field of a command names. -/
inductive Target where
  | nothing
  | special
  | function (body : Command) (line : Nat)
  | builtin
  | program

/-- What a command's first field names, in the order the shell looks: a special builtin, a
function, another builtin, a program. -/
def Session.target (s : Session) : List Bytes → Target
  | [] => .nothing
  | name :: _ =>
    if specialBuiltinNames.contains name then .special
    else
      match s.functions.find? (·.1 == name) with
      | some (_, .function _ body line) => .function body line
      | some _ => .builtin
      | none => if regularBuiltinNames.contains name then .builtin else .program

/-- The assignments of a command expanded and made in order, each for good when `lasting`, else
saved first to be put back after the command and exported for it. -/
def makeAssigns (r : Runner) (lasting : Bool) :
    Session → List Word → List (Bytes × Bytes) → List (Bytes × Option Var) →
      Expanding (List (Bytes × Bytes) × List (Bytes × Option Var))
  | s, [], done, saved => .ok (s, done.reverse, saved)
  | s, w :: rest, done, saved =>
    match w.assignment? with
    | none => makeAssigns r lasting s rest done saved
    | some (name, value) =>
      match expandText r s value with
      | .error e => .error e
      | .ok (s, v) =>
        let saved := if lasting || saved.any (·.1 == name) then saved else saved ++ s.saveVars [name]
        match s.setVar name v with
        | .error e => .error (s, e)
        | .ok s =>
          let s := if lasting then s else s.markExported name
          makeAssigns r lasting s rest ((name, v) :: done) saved

/-- A simple command: fields, redirections, assignments, the trace of `set -x`, and then the
builtin, function or program it names. -/
def runSimple (r : Runner) (s : Session) (flags : Flags) (assigns words : List Word)
    (redirs : List Redirect) (line : Nat) : Session :=
  let s := { s with line := line, substStatus := 0 }
  let declaration := match words.head?.bind Word.plainText? with
    | some n => n == "export" || n == "readonly" || n == "local"
    | none => false
  match expandArgs r declaration s words with
  | .error (s, m) => if s.halt.isSome then s else s.fatal m
  | .ok (s, argv) =>
    if s.halt.isSome then s
    else
      let target := s.target argv
      let lasting := match target with
        | .nothing | .special => true
        | _ => false
      let saved := s.fds
      let touched := redirs.map Redirect.fd
      let (s, failed) := applyRedirs r s redirs
      if s.halt.isSome then s
      else if failed then
        let s := s.restoreFds saved touched
        match target with
        | .special => { s with halt := some (.exit 2) }
        | _ => s.withStatus 2
      else
        match makeAssigns r lasting s assigns [] [] with
        | .error (s, m) => if s.halt.isSome then s else s.fatal m
        | .ok (s, pairs, savedVars) =>
          if s.halt.isSome then s
          else
            let s := if s.options.xtrace then
                match saved.find? (·.1 == 2) with
                | some (_, st) => s.write st (s.traceLine pairs argv)
                | none => s
              else s
            let s : Session := match target, argv with
              | .nothing, _ => s.withStatus s.substStatus
              | .special, name :: args => runBuiltin r s flags ⟨name, true⟩ args
              | .function body defLine, _ :: args => callFunction r s flags body defLine args
              | .builtin, name :: args => runBuiltin r s flags ⟨name, false⟩ args
              | _, _ => runExternal r s flags argv
            let s := s.restoreVars savedVars
            let keepFds := argv == ["exec"]
            let s := if keepFds then s else s.restoreFds saved touched
            s.checkExit flags

-- ============================================================================
-- Pipelines and lists
-- ============================================================================

/-- The shell after the signals it received ran their traps, the status kept. -/
def runPendingTraps (r : Runner) (s : Session) : Session :=
  if s.pendingTraps.isEmpty || s.halt.isSome then s
  else
    let status := s.status
    let sigs := s.pendingTraps
    sigs.foldl (fun s sig =>
      if s.halt.isSome then s
      else
        match s.traps.find? (·.1 == sig) with
        | some (_, action) =>
          let s := r.text s ⟨false, false⟩ action
          if s.halt.isSome then s else s.withStatus status
        | none => s) { s with pendingTraps := [] }

/-- One command; none runs once `set -n` is on. -/
def runCommand (r : Runner) (s : Session) (flags : Flags) (c : Command) : Session :=
  if s.options.noexec then s else
  let inner := if flags.last then { flags with last := false } else flags
  let s := match c with
    | .simple assigns words redirs line => runSimple r s flags assigns words redirs line
    | .subshell body redirs line => runSubshell r { s with line := line } flags body redirs
    | .group body redirs =>
      withRedirs r s redirs fun s => r.lists s (if redirs.isEmpty then flags else inner) body
    | .ifThen branches otherwise redirs =>
      withRedirs r s redirs fun s =>
        runBranches r (if redirs.isEmpty then flags else inner) s branches otherwise
    | .loop untilZero cond body redirs =>
      withRedirs r s redirs fun s =>
        let s := runLoop r inner untilZero cond body r.budget { s with loops := s.loops + 1 } 0
        { s with loops := s.loops - 1 }
    | .forEach name words body redirs line =>
      withRedirs r { s with line := line } redirs fun s =>
        let values : Expanding (List Bytes) := match words with
          | some ws => expandArgs r false s ws
          | none => .ok (s, s.params)
        match values with
        | .error (s, m) => if s.halt.isSome then s else s.fatal m
        | .ok (s, vs) =>
          let s := runFor r inner name body vs { s with loops := s.loops + 1 } 0
          { s with loops := s.loops - 1 }
    | .caseOf subject arms redirs line =>
      withRedirs r { s with line := line } redirs fun s =>
        match expandText r s subject with
        | .error (s, m) => if s.halt.isSome then s else s.fatal m
        | .ok (s, text) => caseArms r (if redirs.isEmpty then flags else inner) text s arms
    | .function name body line =>
      { s with
        functions := s.functions.filter (·.1 != name) ++ [(name, .function name body line)]
        status := 0 }
  runPendingTraps r s

/-- The stages of a pipeline, each in a subshell reading what the one before wrote; the status
is the last one's. -/
def runStages (r : Runner) : Session → Option Bytes → List Command → Session
  | s, _, [] => s
  | s, input, [c] =>
    let child := s.subshell
    let child := match input with
      | some b => child.feed b
      | none => child
    let child := finishShell r (runCommand r child ⟨true, false⟩ c)
    (s.leave child).waited ⟨false, false⟩ child.exitOf
  | s, input, c :: rest =>
    let child := s.subshell
    let child := match input with
      | some b => child.feed b
      | none => child
    let child := { child with pipe := "" }.setFd 1 .pipe
    let child := finishShell r (runCommand r child ⟨true, false⟩ c)
    let out := child.pipe
    runStages r { s.leave child with pipe := s.pipe } (some out) rest

/-- A pipeline, its status negated after `!`. -/
def runPipeline (r : Runner) (s : Session) (flags : Flags) : Pipeline → Session
  | .mk negated [c] =>
    let s := runCommand r s (if negated then ⟨false, true⟩ else flags) c
    if negated then s.withStatus (if s.status == 0 then 1 else 0) else s
  | .mk negated cmds =>
    let s := runStages r s none cmds
    if negated then s.withStatus (if s.status == 0 then 1 else 0)
    else s.checkExit flags

/-- The pipelines after the first of an and-or list: each runs when the status before it says
so; all but the last are conditions. -/
def runLinks (r : Runner) (flags : Flags) : Session → List Link → Session
  | s, [] => s
  | s, l :: rest =>
    if s.halt.isSome then s
    else
      let (p, go) := match l with
        | .andThen p => (p, s.status == 0)
        | .orElse p => (p, s.status != 0)
      let f : Flags := if rest.isEmpty then flags else ⟨false, true⟩
      let s := if go then runPipeline r s f p else s
      runLinks r flags s rest

/-- An and-or list; one run in the background runs in a subshell reading nothing, and is
status 0. -/
def runAndOr (r : Runner) (s : Session) (flags : Flags) : AndOr → Session
  | .mk first links true =>
    let child := s.subshell.feed ""
    let child := runPipeline r child ⟨links.isEmpty, false⟩ first
    let child := finishShell r (runLinks r ⟨true, false⟩ child links)
    let s := s.leave child
    { s with
      status := 0
      background := some child.selfPid
      jobs := s.jobs ++ [(child.selfPid, child.exitOf.status)] }
  | .mk first links false =>
    let s := runPipeline r s (if links.isEmpty then flags else ⟨false, true⟩) first
    runLinks r flags s links

/-- Command lists in order, the last with the flags given, the others not last. -/
def runItems (r : Runner) (s : Session) (flags : Flags) : List AndOr → Session
  | [] => s
  | [item] => runAndOr r s flags item
  | item :: rest =>
    let s := runAndOr r s { flags with last := false } item
    if s.halt.isSome then s else runItems r s flags rest

-- ============================================================================
-- Texts and shells
-- ============================================================================

/-- A command text run a line at a time, at most `lines` lines: each line read in full, with the
aliases of the shell at that moment, then run. A syntax fault ends the shell. The last line may
end the process when `mayEnd` and the shell has no trap. -/
def runScript (r : Runner) (mayEnd : Bool) (tested : Bool) : Nat → Session → Reader → Session
  | 0, s, _ => s
  | lines + 1, s, rd =>
    match { rd with aliases := s.aliases }.nextLine with
    | .error f => { ({ s with line := f.line }).report f.message with status := 2, halt := some (.exit 2) }
    | .ok (none, _) => s
    | .ok (some items, rd) =>
      let s := { s with bodies := s.bodies ++ rd.bodies, nextHere := rd.nextHere }
      let rd := { rd with bodies := [] }
      let atEnd := match rd.pushed with
        | some .eof => true
        | _ => false
      let last := mayEnd && atEnd && !s.hasTraps
      let s := if s.options.noexec then s else runItems r s ⟨last, tested⟩ items
      if s.halt.isSome then s else runScript r mayEnd tested lines s rd

/-- A text run as commands of the shell. -/
def runText (r : Runner) (s : Session) (flags : Flags) (text : Bytes) : Session :=
  runScript r flags.last flags.tested (text.length + 1) s (Reader.ofText text s.aliases s.nextHere)

/-- The variables a shell starts with: its environment, exported, then `IFS`, the prompts and
`OPTIND` where the environment has none, and `PWD` for the working directory. -/
def startVars (env : List (Bytes × Bytes)) (cwd : Bytes) : List Var :=
  let fromEnv := env.filterMap fun (n, v) =>
    if isName n then some ({ name := n, value := some v, exported := true } : Var) else none
  let defaults : List (Bytes × Bytes) :=
    [("IFS", " \t\n"), ("PS1", "$ "), ("PS2", "> "), ("PS4", "+ "), ("OPTIND", "1")]
  let added := defaults.filterMap fun (n, v) =>
    if fromEnv.any (·.name == n) then none else some ({ name := n, value := some v } : Var)
  let vars := fromEnv.filter (·.name != "PWD") ++ added
  vars ++ [{ name := "PWD", value := some cwd, exported := true }]

/-- What the arguments of `sh` ask for: options, and where the commands come from. -/
structure ShellArgs where
  options : Options := {}
  command : Bool := false
  /-- Whether `-s` asks for the commands of standard input, the operands being parameters. -/
  fromInput : Bool := false
  operands : List Bytes := []

/-- The options at the front of the arguments of `sh`; the first word that is not one and the
rest are operands. -/
def shellArgs : Nat → ShellArgs → List Bytes → Except Bytes ShellArgs
  | 0, st, ws => .ok { st with operands := ws }
  | _ + 1, st, [] => .ok st
  | fuel + 1, st, w :: rest =>
    match w.toList with
    | ['-'] | ['-', '-'] => .ok { st with operands := rest }
    | sign :: letters =>
      if sign != '-' && sign != '+' then .ok { st with operands := w :: rest }
      else
        let on := sign == '-'
        let step : Except Bytes (ShellArgs × List Bytes) :=
          letters.foldl (fun acc l =>
            match acc with
            | .error e => .error e
            | .ok (st, ws) =>
              if l == 'c' then .ok ({ st with command := on }, ws)
              else if l == 's' then .ok ({ st with fromInput := on }, ws)
              else if l == 'o' then
                match ws with
                | name :: ws' =>
                  match Session.optionNames.find? (·.1 == name) with
                  | some (_, letter) =>
                    match Session.setOptionLetter st.options letter on with
                    | some o => .ok ({ st with options := o }, ws')
                    | none => .error ("Illegal option -o " ++ name)
                  | none => .error ("Illegal option -o " ++ name)
                | [] => .ok (st, ws)
              else
                match Session.setOptionLetter st.options l on with
                | some o => .ok ({ st with options := o }, ws)
                | none => .error ("Illegal option " ++ String.singleton sign ++ String.singleton l))
            (.ok (st, rest))
        match step with
        | .ok (st, ws) => shellArgs fuel st ws
        | .error e => .error e
    | [] => .ok { st with operands := w :: rest }

/-- The shell as a program: `sh -c text [name [args]]`, `sh file [args]`, or the commands of
its standard input (`sh [-s] [args]`). It ends with the status of its last command or the code `exit` gave, after
its EXIT trap. -/
def runShell (r : Runner) (inv : Invocation) (files : FileTree) : Completion :=
  let fail (msg : Bytes) : Completion :=
    { exit := .code 2, writes := [(.err, inv.program ++ ": 0: " ++ msg ++ "\n")], files }
  match shellArgs (inv.args.length + 1) {} inv.args with
  | .error e => fail e
  | .ok sa =>
    let source : Except Bytes (Bytes × Bytes × Option Bytes × List Bytes × Bytes) :=
      if sa.command then
        match sa.operands with
        | [] => .error "-c requires an argument"
        | text :: rest =>
          match rest with
          | name :: params => .ok (text, name, none, params, inv.stdin)
          | [] => .ok (text, inv.program, none, [], inv.stdin)
      else if sa.fromInput then .ok (inv.stdin, inv.program, none, sa.operands, "")
      else
        match sa.operands with
        | [] => .ok (inv.stdin, inv.program, none, [], "")
        | file :: params =>
          match files.readFile inv.cwd file.toText with
          | .ok content => .ok (content, file, some file, params, inv.stdin)
          | .error e => .error ("cannot open " ++ file ++ ": " ++ openFault e)
    match source with
    | .error e => fail e
    | .ok (text, name, script, params, stdin) =>
      let s : Session := {
        files
        cwd := inv.cwd
        vars := startVars inv.env (Session.locationText inv.cwd)
        params
        name
        commandName := script
        options := sa.options
        inputs := [(0, stdin)] }
      let s := runScript r sa.command false (text.length + 1) s (Reader.ofText text [] 0)
      let s := finishShell r s
      { exit := s.exitOf, writes := s.writes, files := s.files }

/-- The runner one level of fuel above another. -/
def Runner.next (r : Runner) : Runner where
  budget := r.budget + 1
  lists := runItems r
  command := runCommand r
  parts := expandParts r
  text := runText r
  shell := runShell r

/-- The runner with `n` levels of fuel. -/
def runner : Nat → Runner
  | 0 => .exhausted
  | n + 1 => (runner n).next

/-- The levels of fuel the machine's shell runs with. -/
def defaultFuel : Nat := 10000

/-- A program of the machine run on an invocation. -/
def runProgram (u : Utility) (inv : Invocation) (files : FileTree) : Completion :=
  if u == .shell then (runner defaultFuel).shell inv files else Utility.runFile u inv files

theorem runner_succ (n : Nat) : runner (n + 1) = (runner n).next := rfl

theorem runText_blank (r : Runner) (s : Session) (flags : Flags) :
    runText r s flags "" = s := by
  simp only [runText, runScript, Reader.ofText]
  rfl

end BuildRecipe.Shell
