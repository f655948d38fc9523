import BuildRecipe.Shell.Session
import BuildRecipe.Shell.Printf
import BuildRecipe.Shell.Test
/-!
# Builtins that run no commands

The builtins here act on the shell alone: they write, read their standard input, set and list
variables, options, aliases and traps, change folder, and end loops, functions or the shell. The
builtins that run commands (`eval`, `.`, `exec`, `command`) are part of running.

A builtin that fails writes `name: line: builtin: message` and sets status 2. The special
builtins (`:`, `.`, `break`, `continue`, `eval`, `exec`, `exit`, `export`, `local`, `readonly`,
`return`, `set`, `shift`, `times`, `trap`, `unset`) end the shell when they fail.

Counts such as `exit 3` or `shift 2` are decimal, blanks around them allowed, at most
`2^31 - 1`; anything else is `Illegal number`.

A command name is looked up as `type` says: a reserved word, an alias, a function, a special
builtin, another builtin, or a file of a folder of `PATH`, the first regular file found there
(a name with a slash is a path). When the shell comes to run such a file it takes the first one
from there on that can be run, and a file that cannot is `Permission denied`.

Main statements: quoting text without quotes puts it between two (`singleQuote_of_not_mem`),
and `echo` of words without backslashes writes them as they are (`echoWords_of_plain`).
-/

namespace BuildRecipe.Shell

/-- A builtin as it is called: its name, and whether it is special, so that an error in it ends
the shell. -/
structure Call where
  name : Bytes
  special : Bool
  deriving DecidableEq, Repr, Inhabited

/-- The builtins whose errors end the shell and whose assignments stay after them. -/
def specialBuiltinNames : List Bytes :=
  [".", ":", "break", "continue", "eval", "exec", "exit", "export", "local", "readonly", "return",
    "set", "shift", "times", "trap", "unset"]

/-- The other builtins. -/
def regularBuiltinNames : List Bytes :=
  ["[", "alias", "bg", "cd", "chdir", "command", "echo", "false", "fg", "getopts", "hash", "jobs",
    "kill", "printf", "pwd", "read", "test", "true", "type", "ulimit", "umask", "unalias", "wait"]

/-- A count as the shell reads one: decimal, blanks around it allowed, at most `2^31 - 1`. -/
def shellNumber (w : Bytes) : Option Nat :=
  let sc := scanInteger w.toList 10
  if sc.converted && sc.rest.all isCSpace && decide (0 ≤ sc.value) &&
      decide (sc.value ≤ 2147483647) then some sc.value.toNat
  else none

/-- The pieces of a text in single quotes, each run of `'` in double quotes between them. -/
def quoteRuns : Nat → List Char → List Char
  | 0, _ => []
  | fuel + 1, cs =>
    let plain := cs.takeWhile (· != '\'')
    let rest := cs.dropWhile (· != '\'')
    let piece := '\'' :: plain ++ ['\'']
    match rest with
    | [] => piece
    | _ =>
      let marks := rest.takeWhile (· == '\'')
      let after := rest.dropWhile (· == '\'')
      let quotedMarks := '"' :: marks ++ ['"']
      if after.isEmpty then piece ++ quotedMarks else piece ++ quotedMarks ++ quoteRuns fuel after

/-- A text as the shell writes it to be read back: in single quotes, a run of `'` written in
double quotes between the quoted pieces. -/
def singleQuote (b : Bytes) : Bytes := String.ofList (quoteRuns (b.length + 1) b.toList)

/-- The text before the first `=` of a word and the text after it, if it has one. -/
def splitAssignment (w : Bytes) : Bytes × Option Bytes :=
  let cs := w.toList
  match cs.findIdx? (· == '=') with
  | some i => (String.ofList (cs.take i), some (String.ofList (cs.drop (i + 1))))
  | none => (w, none)

-- ============================================================================
-- Options of builtins
-- ============================================================================

/-- The letters of one word of options, each with its argument, taking the next word for a
letter that needs one and has nothing after it in the word. -/
def optionLetters (allowed takesArg : List Char) :
    List Char → List Bytes → Except Bytes (List (Char × Bytes) × List Bytes)
  | [], rest => .ok ([], rest)
  | c :: more, rest =>
    if !allowed.contains c then .error ("Illegal option -" ++ String.singleton c)
    else if takesArg.contains c then
      if more.isEmpty then
        match rest with
        | a :: rest' => .ok ([(c, a)], rest')
        | [] => .error ("No arg for -" ++ String.singleton c ++ " option")
      else .ok ([(c, String.ofList more)], rest)
    else
      match optionLetters allowed takesArg more rest with
      | .ok (os, r) => .ok ((c, "") :: os, r)
      | .error e => .error e

/-- The options at the front of a builtin's arguments: words `-xyz` up to `--`, a lone `-` or
another word. -/
def builtinOptions (allowed takesArg : List Char) :
    Nat → List Bytes → Except Bytes (List (Char × Bytes) × List Bytes)
  | 0, ws => .ok ([], ws)
  | _ + 1, [] => .ok ([], [])
  | fuel + 1, w :: rest =>
    match w.toList with
    | ['-', '-'] => .ok ([], rest)
    | '-' :: c :: cs =>
      match optionLetters allowed takesArg (c :: cs) rest with
      | .error e => .error e
      | .ok (opts, rest) =>
        match builtinOptions allowed takesArg fuel rest with
        | .ok (more, ws) => .ok (opts ++ more, ws)
        | .error e => .error e
    | _ => .ok ([], w :: rest)

/-- The options of a builtin's arguments and the words after them. -/
def readOptions (allowed takesArg : List Char) (args : List Bytes) :
    Except Bytes (List (Char × Bytes) × List Bytes) :=
  builtinOptions allowed takesArg (args.length + 1) args

-- ============================================================================
-- Signals
-- ============================================================================

/-- The signals: number, name, and the description a shell writes for a program it killed. -/
def signalTable : List (Nat × Bytes × Bytes) :=
  [(1, "HUP", "Hangup"), (2, "INT", "Interrupt"), (3, "QUIT", "Quit"),
    (4, "ILL", "Illegal instruction"), (5, "TRAP", "Trace/breakpoint trap"), (6, "ABRT", "Aborted"),
    (7, "BUS", "Bus error"), (8, "FPE", "Floating point exception"), (9, "KILL", "Killed"),
    (10, "USR1", "User defined signal 1"), (11, "SEGV", "Segmentation fault"),
    (12, "USR2", "User defined signal 2"), (13, "PIPE", "Broken pipe"), (14, "ALRM", "Alarm clock"),
    (15, "TERM", "Terminated"), (16, "STKFLT", "Stack fault"), (17, "CHLD", "Child exited"),
    (18, "CONT", "Continued"), (19, "STOP", "Stopped (signal)"), (20, "TSTP", "Stopped"),
    (21, "TTIN", "Stopped (tty input)"), (22, "TTOU", "Stopped (tty output)"),
    (23, "URG", "Urgent I/O condition"), (24, "XCPU", "CPU time limit exceeded"),
    (25, "XFSZ", "File size limit exceeded"), (26, "VTALRM", "Virtual timer expired"),
    (27, "PROF", "Profiling timer expired"), (28, "WINCH", "Window changed"),
    (29, "IO", "I/O possible"), (30, "PWR", "Power failure"), (31, "SYS", "Bad system call")]

/-- The name of a signal, `EXIT` for the shell's exit. -/
def signalName (n : Nat) : Bytes :=
  if n == 0 then "EXIT" else ((signalTable.find? (·.1 == n)).map (·.2.1)).getD (Nat.repr n)

/-- The description of a signal. -/
def signalText (n : Nat) : Bytes :=
  ((signalTable.find? (·.1 == n)).map (·.2.2)).getD ("Real-time signal " ++ Nat.repr n)

/-- The signals a process leaves alone unless it traps them. -/
def harmlessSignals : List Nat := [17, 18, 19, 20, 21, 22, 23, 28]

/-- The signal a word names: a number below 65, or a name in any case, with or without `SIG`;
`EXIT` is 0 when `withExit`. -/
def signalNumber? (w : Bytes) (withExit : Bool) : Option Nat :=
  if !w.isEmpty && w.all Char.isDigit then
    match w.toNat? with
    | some n => if n < 65 then some n else none
    | none => none
  else
    let up := w.toUpper
    let up := if up.startsWith "SIG" then String.ofList (up.toList.drop 3) else up
    if up == "EXIT" then (if withExit then some 0 else none)
    else (signalTable.find? (·.2.1 == up)).map (·.1)

-- ============================================================================
-- Finding commands
-- ============================================================================

/-- Whether a node can be run: a program, or a file with an execute bit. -/
def runnable : Node → Bool
  | .executable _ => true
  | .file _ m => m &&& 0o111 != 0
  | .directory => false

/-- The path of a name in a folder of the search path; an empty folder is the working
directory. -/
def inFolder (d name : Bytes) : Bytes := if d.isEmpty then name else d ++ "/" ++ name

/-- What looking a command up in the files found. -/
inductive Lookup where
  /-- A file, by the path it was found at. -/
  | found (path : Bytes) (node : Node)
  /-- Files were there, but none of them can be run. -/
  | denied
  /-- Nothing is there. -/
  | missing
  deriving Repr, Inhabited

/-- The node a path of the shell names. -/
def nodeAt (t : FileTree) (cwd : Location) (p : Bytes) : Option Node :=
  (t.metadata cwd p.toText).toOption

/-- The paths of a command name in the folders of a search path, from the first regular file. -/
def searchFrom (t : FileTree) (cwd : Location) (path name : Bytes) : List Bytes :=
  ((path.splitOn ":").map fun d => inFolder d name).dropWhile fun p =>
    match nodeAt t cwd p with
    | some .directory | none => true
    | some _ => false

/-- Where `type` finds a command file: the path, or the first regular file of the search path;
nothing when there is none. -/
def whereIs (t : FileTree) (cwd : Location) (path name : Bytes) : Option Bytes :=
  if name.contains '/' then (nodeAt t cwd name).map fun _ => name
  else (searchFrom t cwd path name).head?

/-- The file a command name runs: a path, or from the first regular file of the search path on,
the first that can be run. -/
def locate (t : FileTree) (cwd : Location) (path name : Bytes) : Lookup :=
  if name.contains '/' then
    match nodeAt t cwd name with
    | some n => if runnable n then .found name n else .denied
    | none => .missing
  else
    let from_ := searchFrom t cwd path name
    let runnable := from_.filterMap fun p =>
      match nodeAt t cwd p with
      | some n => if runnable n then some (p, n) else none
      | none => none
    match runnable with
    | (p, n) :: _ => .found p n
    | [] => if from_.isEmpty then .missing else .denied

namespace Session

/-- Bytes written to standard output. -/
def out (s : Session) (b : Bytes) : Session := s.emit 1 b

/-- The shell with a status. -/
def withStatus (s : Session) (n : Nat) : Session := { s with status := n }

/-- A builtin's error: its message and status 2; an error of a special builtin ends the shell. -/
def failIn (s : Session) (c : Call) (msg : Bytes) : Session :=
  let s := s.reportAs c.name msg
  if c.special then { s with status := 2, halt := some (.exit 2) } else { s with status := 2 }

/-- The shell remembering where a program was found. -/
def remember (s : Session) (name path : Bytes) : Session :=
  { s with hashed := (s.hashed.filter (·.1 != name)) ++ [(name, path)] }

/-- A variable set, with what setting `PATH` or `OPTIND` does besides: the programs found so far
are forgotten, and `getopts` starts again. -/
def setVar (s : Session) (name value : Bytes) : Except Bytes Session :=
  match s.assign name value with
  | .error e => .error e
  | .ok s =>
    if name == "PATH" then .ok { s with hashed := [] }
    else if name == "OPTIND" then
      .ok { s with optIndex := max 1 ((shellNumber value).getD 1), optOffset := none }
    else .ok s

/-- Variables set one after another, up to the first that refuses. -/
def setAll (s : Session) : List (Bytes × Bytes) → Except Bytes Session
  | [] => .ok s
  | (n, v) :: rest =>
    match s.setVar n v with
    | .ok s => s.setAll rest
    | .error e => .error e

/-- Variables set one after another by a builtin, the first that refuses failing it. -/
def setVars (s : Session) (c : Call) (pairs : List (Bytes × Bytes)) : Session :=
  match s.setAll pairs with
  | .ok s => s
  | .error e => s.failIn c e

/-- The shell after a signal reached it: a trapped signal's action runs when the command in hand
is done, an ignored one does nothing, and any other ends the shell unless it is harmless. -/
def receive (s : Session) (sig : Nat) : Session :=
  if sig == 0 then s
  else
    match s.traps.find? (·.1 == sig) with
    | some (_, action) =>
      if action.isEmpty then s else { s with pendingTraps := s.pendingTraps ++ [sig] }
    | none => if harmlessSignals.contains sig then s else { s with halt := some (.signal sig) }

-- ============================================================================
-- Output builtins
-- ============================================================================

/-- The bytes `echo` writes for its words: each with its escapes replaced, a blank between two,
and a newline after the last unless `newline` is false; `\c` ends everything. -/
def echoWords (newline : Bool) : List Bytes → List Char
  | [] => if newline then ['\n'] else []
  | [a] =>
    let (t, stop) := echoEscapes (a.length + 1) a.toList
    if stop then t else t ++ (if newline then ['\n'] else [])
  | a :: rest =>
    let (t, stop) := echoEscapes (a.length + 1) a.toList
    if stop then t else t ++ [' '] ++ echoWords newline rest

/-- `echo [-n] words`. -/
def echo (s : Session) (args : List Bytes) : Session :=
  let (newline, args) := match args with
    | "-n" :: rest => (false, rest)
    | _ => (true, args)
  (s.out (String.ofList (echoWords newline args))).withStatus 0

/-- `printf format args`: warnings first, then what the format wrote; status 1 after a warning,
2 after an error. -/
def printf (s : Session) (c : Call) (args : List Bytes) : Session :=
  match readOptions [] [] args with
  | .error e => s.failIn c e
  | .ok (_, []) => s.failIn c "usage: printf format [arg ...]"
  | .ok (_, format :: rest) =>
    let (text, warnings, ending) := formatOutput format rest
    let s := warnings.foldl (fun s w => s.reportAs c.name w) s
    match ending with
    | .failed msg => (s.failIn c msg).out text
    | _ => (s.out text).withStatus (if warnings.isEmpty then 0 else 1)

/-- `test` and `[`. -/
def test (s : Session) (c : Call) (args : List Bytes) : Session :=
  match evalTest s.files s.cwd (c.name == "[") args with
  | .ok n => s.withStatus n
  | .error e => s.failIn c e

/-- `pwd`. -/
def pwd (s : Session) (c : Call) (args : List Bytes) : Session :=
  match readOptions ['L', 'P'] [] args with
  | .error e => s.failIn c e
  | .ok _ => (s.out (s.cwdText ++ "\n")).withStatus 0

-- ============================================================================
-- Reading a line
-- ============================================================================

/-- The line `read` takes from its input: each byte with whether a backslash protected it, whether
a newline ended the line, and how many bytes were taken. Without `raw`, a backslash protects the
byte after it and a backslash before a newline joins the next line; NUL bytes are dropped. -/
def readLine (raw : Bool) : List Char → List (Char × Bool) × Bool × Nat
  | [] => ([], false, 0)
  | '\n' :: _ => ([], true, 1)
  | '\x00' :: rest =>
    let (l, e, n) := readLine raw rest
    (l, e, n + 1)
  | ['\\'] => if raw then ([('\\', false)], false, 1) else ([], false, 1)
  | '\\' :: c :: rest =>
    if raw then
      let (l, e, n) := readLine raw (c :: rest)
      (('\\', false) :: l, e, n + 1)
    else if c == '\n' then
      let (l, e, n) := readLine raw rest
      (l, e, n + 2)
    else
      let (l, e, n) := readLine raw rest
      ((c, true) :: l, e, n + 2)
  | c :: rest =>
    let (l, e, n) := readLine raw rest
    ((c, false) :: l, e, n + 1)

/-- Whether a byte of a line read is one of `IFS`, and whether it is white space of it. -/
def ifsByte (ifs : List Char) (b : Char × Bool) : Bool := !b.2 && ifs.contains b.1

/-- Whether a byte of a line read is `IFS` white space. -/
def ifsWhite (ifs : List Char) (b : Char × Bool) : Bool :=
  ifsByte ifs b && (b.1 == ' ' || b.1 == '\t' || b.1 == '\n')

/-- A line read after one field: the delimiter after it, white space and at most one other byte
of `IFS`, taken away. -/
def dropDelimiter (ifs : List Char) (line : List (Char × Bool)) : List (Char × Bool) :=
  let r := line.dropWhile (ifsWhite ifs)
  match r with
  | b :: more => if ifsByte ifs b && !ifsWhite ifs b then more.dropWhile (ifsWhite ifs) else r
  | [] => []

/-- The value the last name of `read` takes from what is left of the line: the one field left
without its delimiter, or with more fields, all of it but the `IFS` white space at its end. -/
def lastField (ifs : List Char) (line : List (Char × Bool)) : Bytes :=
  let field := line.takeWhile (!ifsByte ifs ·)
  let after := dropDelimiter ifs (line.dropWhile (!ifsByte ifs ·))
  if after.isEmpty then String.ofList (field.map (·.1))
  else String.ofList ((line.reverse.dropWhile (ifsWhite ifs)).reverse.map (·.1))

/-- The values of `count` names from a line read, split at its `IFS` bytes. -/
def readFields (ifs : List Char) : Nat → List (Char × Bool) → List Bytes
  | 0, _ => []
  | 1, line => [lastField ifs (line.dropWhile (ifsWhite ifs))]
  | k + 1, line =>
    let line := line.dropWhile (ifsWhite ifs)
    let field := line.takeWhile (!ifsByte ifs ·)
    let rest := dropDelimiter ifs (line.dropWhile (!ifsByte ifs ·))
    String.ofList (field.map (·.1)) :: readFields ifs k rest

/-- `read [-r] [-p prompt] names`: a line of standard input split into the names; status 1 when
the input ended before a newline. -/
def read (s : Session) (c : Call) (args : List Bytes) : Session :=
  match readOptions ['p', 'r'] ['p'] args with
  | .error e => s.failIn c e
  | .ok (opts, names) =>
    if names.isEmpty then s.failIn c "arg count"
    else
      let raw := opts.any (·.1 == 'r')
      let (line, ended, used) := readLine raw (s.peekInput 0).toList
      let s := s.consumeInput 0 used
      let ifs := ((s.lookup "IFS").getD " \t\n").toList
      let values := readFields ifs names.length line
      match s.setAll (names.zip values) with
      | .ok s => s.withStatus (if ended then 0 else 1)
      | .error e => s.failIn c e

-- ============================================================================
-- Folders and the file mask
-- ============================================================================

/-- The location a path leads to from a folder, `.` and `..` taken away by their text. -/
def lexicalLocation (cwd : Location) (p : Bytes) : Location :=
  let start := if p.startsWith "/" then [] else cwd
  (p.splitOn "/").foldl (fun l seg =>
    if seg.isEmpty || seg == "." then l
    else if seg == ".." then l.dropLast
    else l ++ [Bytes.toText seg]) start

/-- The text of a location. -/
def locationText (l : Location) : Bytes := "/" ++ "/".intercalate (l.map Bytes.ofText)

/-- Whether `cd` looks a folder up in `CDPATH`: it is not absolute and does not start with `.`
or `..`. -/
def searchesCdpath (dest : Bytes) : Bool :=
  !(dest.startsWith "/" || dest == "." || dest == ".." || dest.startsWith "./" ||
    dest.startsWith "../")

/-- `cd [-L|-P] [dir]`: to `HOME` without a folder, to `OLDPWD` for `-`, through `CDPATH` for a
plain name; the folder is written when it came from `OLDPWD` or a folder of `CDPATH`. -/
def cd (s : Session) (c : Call) (args : List Bytes) : Session :=
  match readOptions ['L', 'P'] [] args with
  | .error e => s.failIn c e
  | .ok (opts, rest) =>
    let physical := opts.any (·.1 == 'P')
    let (dest, print) := match rest with
      | [] => ((s.lookup "HOME").getD "", false)
      | "-" :: _ => ((s.lookup "OLDPWD").getD "", true)
      | d :: _ => (d, false)
    let target := if dest.isEmpty then "." else dest
    let candidates : List (Bytes × Bool) :=
      if searchesCdpath dest then
        match s.lookup "CDPATH" with
        | some cdpath => (cdpath.splitOn ":").map fun d => (inFolder d target, !d.isEmpty)
        | none => []
      else []
    let reach (p : Bytes) : Option Location :=
      if physical then (s.files.directoryAt s.cwd p.toText).toOption
      else
        let l := lexicalLocation s.cwd p
        if s.files.isDirectoryAt l then some l else none
    let found := candidates.findSome? fun (p, fromPath) => (reach p).map (·, fromPath)
    let found := match found with
      | some f => some f
      | none => (reach target).map (·, false)
    match found with
    | none => s.failIn c ("can't cd to " ++ dest)
    | some (l, fromPath) =>
      let old := s.cwdText
      let s := { s with cwd := l }
      let s := (s.markExported "OLDPWD").markExported "PWD"
      match s.setAll [("OLDPWD", old), ("PWD", s.cwdText)] with
      | .error e => s.failIn c e
      | .ok s =>
        let s := if print || fromPath then s.out (s.cwdText ++ "\n") else s
        s.withStatus 0

/-- A mask in octal with at least four digits. -/
def octal4 (n : Nat) : Bytes :=
  let ds := Nat.toDigits 8 n
  String.ofList (List.replicate (4 - ds.length) '0' ++ ds)

/-- A symbolic mode of `umask` applied to the permissions a mask allows: `who`, an operator and
permissions, clauses joined by commas. The permissions after, or none when the text is not a
mode. -/
def symbolicMask (allowed : Nat) (text : List Char) : Option Nat :=
  let rec clauses : Nat → Nat → List Char → Option Nat
    | 0, m, _ => some m
    | fuel + 1, m, cs =>
      let whoChars := cs.takeWhile fun ch => "augo".toList.contains ch
      let cs := cs.drop whoChars.length
      let who := whoChars.foldl (fun acc ch =>
        acc ||| (match ch with
          | 'a' => 0o111
          | 'u' => 0o100
          | 'g' => 0o010
          | _ => 0o001)) 0
      let who := if who == 0 then 0o111 else who
      match cs with
      | op :: cs =>
        if !("=+-".toList.contains op) then if cs.isEmpty then some m else none
        else
          let permChars := cs.takeWhile fun ch => "rwxugoXs".toList.contains ch
          let cs := cs.drop permChars.length
          let value := permChars.foldl (fun acc ch =>
            acc ||| (match ch with
              | 'r' => 4
              | 'w' => 2
              | 'x' => 1
              | 'u' => allowed >>> 6
              | 'g' => allowed >>> 3
              | 'o' => allowed
              | 'X' => if allowed &&& 0o111 != 0 then 1 else 0
              | _ => 0)) 0
          let value := (value &&& 7) * who
          let m := match op with
            | '-' => m &&& (0o7777 ^^^ value)
            | '=' => (m &&& (0o7777 ^^^ (7 * who))) ||| value
            | _ => m ||| value
          match cs with
          | ',' :: more => clauses fuel m more
          | next :: _ => if "=+-".toList.contains next then clauses fuel m cs else none
          | [] => some m
      | [] => some m
  clauses (text.length + 1) allowed text

/-- `umask [-S] [mask]`: the mask in octal or, with `-S`, as the permissions it allows; or the
mask set, in octal or symbolically. -/
def fileMask (s : Session) (c : Call) (args : List Bytes) : Session :=
  match readOptions ['S'] [] args with
  | .error e => s.failIn c e
  | .ok (opts, []) =>
    if opts.any (·.1 == 'S') then
      let allowed := 0o777 ^^^ s.umask
      let part (who : Char) (shift : Nat) : Bytes :=
        String.ofList (who :: '=' :: ([('r', 4), ('w', 2), ('x', 1)].filterMap fun (ch, bit) =>
          if (allowed >>> shift) &&& bit != 0 then some ch else none))
      (s.out (part 'u' 6 ++ "," ++ part 'g' 3 ++ "," ++ part 'o' 0 ++ "\n")).withStatus 0
    else (s.out (octal4 s.umask ++ "\n")).withStatus 0
  | .ok (_, m :: _) =>
    if m.toList.head?.any Char.isDigit then
      if m.all fun ch => '0' ≤ ch && ch ≤ '7' then
        let v := m.toList.foldl (fun acc ch => acc * 8 + (ch.toNat - 48)) 0
        { s with umask := v &&& 0o777, status := 0 }
      else s.failIn c ("Illegal number: " ++ m)
    else
      match symbolicMask (0o7777 ^^^ s.umask) m.toList with
      | some allowed => { s with umask := (0o7777 ^^^ allowed) &&& 0o777, status := 0 }
      | none => s.failIn c ("Illegal mode: " ++ m)

-- ============================================================================
-- Variables
-- ============================================================================

/-- The variables a listing shows, by name, each `prefix NAME='value'`, or `prefix NAME` when it
has no value. -/
def listVars (s : Session) (lead : Bytes) (keep : Var → Bool) : Bytes :=
  let vs := (s.vars.filter keep).mergeSort fun a b => decide (a.name ≤ b.name)
  String.join (vs.map fun v =>
    let body := match v.value with
      | some val => v.name ++ "=" ++ singleQuote val
      | none => v.name
    (if lead.isEmpty then "" else lead ++ " ") ++ body ++ "\n")

/-- `export` and `readonly`: each `name=value` set and marked, each `name` marked; with no names
or `-p`, the marked variables listed. -/
def markVars (s : Session) (c : Call) (readonly : Bool) (args : List Bytes) : Session :=
  match readOptions ['p'] [] args with
  | .error e => s.failIn c e
  | .ok (opts, names) =>
    if names.isEmpty || opts.any (·.1 == 'p') then
      (s.out (s.listVars c.name fun v => if readonly then v.readonly else v.exported)).withStatus 0
    else
      let rec go : Session → List Bytes → Session
        | s, [] => s.withStatus 0
        | s, w :: rest =>
          let (n, v) := splitAssignment w
          if !isName n then s.failIn c (n ++ ": bad variable name")
          else
            let mark (s : Session) : Session := if readonly then s.markReadonly n else s.markExported n
            match v with
            | some value =>
              match s.setVar n value with
              | .ok s => go (mark s) rest
              | .error e => s.failIn c e
            | none => go (mark s) rest
      go s names

/-- `unset [-f|-v] names`: variables, or with `-f` functions. -/
def unset (s : Session) (c : Call) (args : List Bytes) : Session :=
  match readOptions ['f', 'v'] [] args with
  | .error e => s.failIn c e
  | .ok (opts, names) =>
    let functions := (opts.getLast?.map (·.1)) == some 'f'
    let rec go : Session → List Bytes → Session
      | s, [] => s.withStatus 0
      | s, n :: rest =>
        if functions then go { s with functions := s.functions.filter (·.1 != n) } rest
        else if !isName n then s.failIn c (n ++ ": bad variable name")
        else
          match s.unsetVar n with
          | .ok s => go s rest
          | .error e => s.failIn c e
    go s names

/-- `local names`: each variable saved, to be restored when the function returns, and set when
a value is given. -/
def makeLocal (s : Session) (c : Call) (args : List Bytes) : Session :=
  match s.locals with
  | [] => s.failIn c "not in a function"
  | _ =>
    let rec go : Session → List Bytes → Session
      | s, [] => s.withStatus 0
      | s, w :: rest =>
        if w == "-" then go s rest
        else
          let (n, v) := splitAssignment w
          if !isName n then s.failIn c (n ++ ": bad variable name")
          else
            let saved := (s.var? n).getD { name := n, value := none }
            let s := match s.locals with
              | frame :: more => { s with locals := (saved :: frame) :: more }
              | [] => s
            match v with
            | some value =>
              match s.setVar n value with
              | .ok s => go s rest
              | .error e => s.failIn c e
            | none => go s rest
    go s args

-- ============================================================================
-- Options and parameters
-- ============================================================================

/-- The options of the shell by name and letter; a space marks one without a letter. -/
def optionNames : List (Bytes × Char) :=
  [("errexit", 'e'), ("noglob", 'f'), ("ignoreeof", 'I'), ("interactive", 'i'), ("monitor", 'm'),
    ("noexec", 'n'), ("stdin", 's'), ("xtrace", 'x'), ("verbose", 'v'), ("vi", 'V'),
    ("emacs", 'E'), ("noclobber", 'C'), ("allexport", 'a'), ("notify", 'b'), ("nounset", 'u'),
    ("nolog", ' '), ("debug", ' ')]

/-- The options with one turned on or off by its letter, if the letter names one. -/
def setOptionLetter (o : Options) (c : Char) (v : Bool) : Option Options :=
  match c with
  | 'e' => some { o with errexit := v }
  | 'f' => some { o with noglob := v }
  | 'n' => some { o with noexec := v }
  | 'u' => some { o with nounset := v }
  | 'v' => some { o with verbose := v }
  | 'x' => some { o with xtrace := v }
  | 'a' => some { o with allexport := v }
  | 'C' => some { o with noclobber := v }
  | 'b' | 'm' | 'I' | 'i' | 's' | 'V' | 'E' | ' ' => some o
  | _ => none

/-- Whether the option of a letter is on. -/
def optionLetterOn (o : Options) (c : Char) : Bool :=
  match c with
  | 'e' => o.errexit
  | 'f' => o.noglob
  | 'n' => o.noexec
  | 'u' => o.nounset
  | 'v' => o.verbose
  | 'x' => o.xtrace
  | 'a' => o.allexport
  | 'C' => o.noclobber
  | _ => false

/-- Text padded with blanks to a width. -/
def padRight (b : Bytes) (width : Nat) : Bytes :=
  b ++ String.ofList (List.replicate (width - b.length) ' ')

/-- What options words of `set` do: the options after them, the lines to write, the words after
the options, whether the parameters are to be set even with no words after, or an error. -/
structure OptionWords where
  options : Options
  output : Bytes := ""
  rest : List Bytes := []
  setParams : Bool := false

/-- The option words at the front of the arguments of `set`. -/
def optionWords : Nat → OptionWords → List Bytes → Except Bytes OptionWords
  | 0, st, ws => .ok { st with rest := ws }
  | _ + 1, st, [] => .ok st
  | fuel + 1, st, w :: rest =>
    match w.toList with
    | ['-'] =>
      let o := { st.options with xtrace := false, verbose := false }
      .ok { st with options := o, rest := rest }
    | ['-', '-'] => .ok { st with rest := rest, setParams := true }
    | sign :: letters =>
      if sign != '-' && sign != '+' then .ok { st with rest := w :: rest }
      else
        let on := sign == '-'
        let rec letterLoop : List Char → OptionWords → List Bytes → Except Bytes (OptionWords × List Bytes)
          | [], st, ws => .ok (st, ws)
          | 'o' :: more, st, ws =>
            match ws with
            | name :: ws' =>
              match optionNames.find? (·.1 == name) with
              | some (_, l) =>
                match setOptionLetter st.options l on with
                | some o => letterLoop more { st with options := o } ws'
                | none => .error ("Illegal option -o " ++ name)
              | none => .error ("Illegal option -o " ++ name)
            | [] =>
              let o := st.options
              let text := if on then
                  "Current option settings\n" ++ String.join (optionNames.map fun (n, l) =>
                    padRight n 16 ++ (if optionLetterOn o l then "on" else "off") ++ "\n")
                else String.join (optionNames.map fun (n, l) =>
                    "set " ++ (if optionLetterOn o l then "-o " else "+o ") ++ n ++ "\n")
              letterLoop more { st with output := st.output ++ text } ws
          | l :: more, st, ws =>
            match setOptionLetter st.options l on with
            | some o => letterLoop more { st with options := o } ws
            | none => .error ("Illegal option " ++ String.singleton sign ++ String.singleton l)
        match letterLoop letters st rest with
        | .ok (st, ws) => optionWords fuel st ws
        | .error e => .error e
    | [] => .ok { st with rest := w :: rest }

/-- `set`: with no words the variables listed; else options set and, after them, the positional
parameters. -/
def set (s : Session) (c : Call) (args : List Bytes) : Session :=
  if args.isEmpty then (s.out (s.listVars "" fun v => v.value.isSome)).withStatus 0
  else
    match optionWords (args.length + 1) { options := s.options } args with
    | .error e => s.failIn c e
    | .ok st =>
      let s := { s with options := st.options }
      let s := s.out st.output
      let s := if st.setParams || !st.rest.isEmpty then
          { s with params := st.rest, optIndex := 1, optOffset := none }
        else s
      s.withStatus 0

/-- `shift [n]`. -/
def shift (s : Session) (c : Call) (args : List Bytes) : Session :=
  let n := match args with
    | [] => some 1
    | a :: _ => shellNumber a
  match n with
  | none => s.failIn c ("Illegal number: " ++ args.headD "")
  | some n =>
    if n > s.params.length then s.failIn c "can't shift that many"
    else { s with params := s.params.drop n, status := 0 }

/-- `exit [n]`: the shell ends with `n`, or with the last status. -/
def exit (s : Session) (c : Call) (args : List Bytes) : Session :=
  match args with
  | [] => { s with halt := some (.exit s.status) }
  | a :: _ =>
    match shellNumber a with
    | some n => { s with status := n, halt := some (.exit n) }
    | none => s.failIn c ("Illegal number: " ++ a)

/-- `return [n]`: the function ends with `n`, or with the last status. -/
def returnFrom (s : Session) (c : Call) (args : List Bytes) : Session :=
  match args with
  | [] => { s with halt := some (.returnFrom s.status) }
  | a :: _ =>
    match shellNumber a with
    | some n => { s with status := n, halt := some (.returnFrom n) }
    | none => s.failIn c ("Illegal number: " ++ a)

/-- `break [n]` and `continue [n]`: the `n` innermost loops left, or the next round of the
`n`-th; outside loops nothing. -/
def leaveLoops (s : Session) (c : Call) (continuing : Bool) (args : List Bytes) : Session :=
  let n := match args with
    | [] => some 1
    | a :: _ => shellNumber a
  match n with
  | some (n + 1) =>
    let n := min (n + 1) s.loops
    if n == 0 then s.withStatus 0
    else { s with status := 0, halt := some (if continuing then .continueLoop n else .breakLoop n) }
  | _ => s.failIn c ("Illegal number: " ++ args.headD "")

-- ============================================================================
-- Aliases, traps, signals and the rest
-- ============================================================================

/-- An alias as `alias` writes it. -/
def aliasLine (n v : Bytes) : Bytes := n ++ "=" ++ singleQuote v ++ "\n"

/-- `alias [name[=value]...]`: each alias set, or written; with no words all of them. -/
def setAliases (s : Session) (args : List Bytes) : Session :=
  if args.isEmpty then
    (s.out (String.join (s.aliases.map fun (n, v) => aliasLine n v))).withStatus 0
  else
    args.foldl (fun s w =>
      let cs := w.toList
      match (cs.drop 1).findIdx? (· == '=') with
      | some i =>
        let n := String.ofList (cs.take (i + 1))
        let v := String.ofList (cs.drop (i + 2))
        let aliases := if s.aliases.any (·.1 == n) then
            s.aliases.map fun (m, u) => if m == n then (m, v) else (m, u)
          else s.aliases ++ [(n, v)]
        { s with aliases := aliases }
      | none =>
        match s.aliases.find? (·.1 == w) with
        | some (n, v) => s.out (aliasLine n v)
        | none => (s.emit 2 ("alias: " ++ w ++ " not found\n")).withStatus 1)
      (s.withStatus 0)

/-- `unalias [-a] names`. -/
def unalias (s : Session) (c : Call) (args : List Bytes) : Session :=
  match readOptions ['a'] [] args with
  | .error e => s.failIn c e
  | .ok (opts, names) =>
    if opts.any (·.1 == 'a') then { s with aliases := [], status := 0 }
    else
      names.foldl (fun s n =>
        if s.aliases.any (·.1 == n) then { s with aliases := s.aliases.filter (·.1 != n) }
        else (s.emit 2 ("unalias: " ++ n ++ " not found\n")).withStatus 1) (s.withStatus 0)

/-- `trap [action] signals`: with no words the traps written; an action of `-`, or a first word
that is a signal, puts the signals back to their defaults. -/
def trap (s : Session) (args : List Bytes) : Session :=
  let args := match args with
    | "--" :: rest => rest
    | _ => args
  match args with
  | [] =>
    let ts := s.traps.mergeSort fun a b => decide (a.1 ≤ b.1)
    (s.out (String.join (ts.map fun (n, a) =>
      "trap -- " ++ singleQuote a ++ " " ++ signalName n ++ "\n"))).withStatus 0
  | first :: more =>
    let (action, sigs) :=
      if more.isEmpty || (signalNumber? first true).isSome then (none, args)
      else if first == "-" then (none, more)
      else (some first, more)
    let rec go : Session → List Bytes → Session
      | s, [] => s.withStatus 0
      | s, w :: rest =>
        match signalNumber? w true with
        | none => (s.emit 2 ("trap: " ++ w ++ ": bad trap\n")).withStatus 1
        | some n =>
          let traps := s.traps.filter (·.1 != n)
          let traps := match action with
            | some a => traps ++ [(n, a)]
            | none => traps
          go { s with traps := traps } rest
    go s sigs

/-- The signals `kill -l` lists. -/
def signalList : Bytes := "0\n" ++ String.join (signalTable.map fun (_, n, _) => n ++ "\n")

/-- `kill [-s sig | -sig] pids` and `kill -l [status]`: the signal sent to the shell itself, or
to a shell it was started from; another process is not there. -/
def kill (s : Session) (c : Call) (args : List Bytes) : Session :=
  let usage := "Usage: kill [-s sigspec | -signum | -sigspec] [pid | job]... or\nkill -l [exitstatus]"
  match args with
  | [] => s.failIn c usage
  | "-l" :: rest =>
    match rest with
    | [] => (s.out signalList).withStatus 0
    | w :: _ =>
      match shellNumber w with
      | some n =>
        let n := if n > 128 then n - 128 else n
        if 0 < n && n < 32 then (s.out (signalName n ++ "\n")).withStatus 0
        else s.failIn c ("invalid signal number or exit status: " ++ w)
      | none => s.failIn c ("Illegal number: " ++ w)
  | first :: rest =>
    let parsed : Except Bytes (Nat × List Bytes) :=
      if first == "-s" then
        match rest with
        | name :: pids =>
          match signalNumber? name false with
          | some n => .ok (n, pids)
          | none => .error ("invalid signal number or name: " ++ name)
        | [] => .error usage
      else if first.startsWith "-" && first.length > 1 then
        match signalNumber? (String.ofList (first.toList.drop 1)) false with
        | some n => .ok (n, rest)
        | none => .error ("invalid signal number or name: " ++ String.ofList (first.toList.drop 1))
      else .ok (15, args)
    match parsed with
    | .error e => s.failIn c e
    | .ok (_, []) => s.failIn c usage
    | .ok (sig, pids) =>
      pids.foldl (fun s p =>
        match shellNumber p with
        | none => s.failIn c ("Illegal number: " ++ p)
        | some pid =>
          if pid == s.selfPid then s.receive sig
          else if s.ancestors.contains pid then
            { s with signalsSent := s.signalsSent ++ [(pid, sig)] }
          else (s.reportAs c.name "No such process\n").withStatus 1) (s.withStatus 0)

/-- `wait [pids]`: the status of the last one waited for, 127 for one that is not a child. -/
def wait (s : Session) (args : List Bytes) : Session :=
  args.foldl (fun s p =>
    match (shellNumber p).bind fun pid => s.jobs.find? (·.1 == pid) with
    | some (_, st) => s.withStatus st
    | none => s.withStatus 127) (s.withStatus 0)

/-- `hash`: the programs found so far; `-r` forgets them. -/
def hash (s : Session) (args : List Bytes) : Session :=
  match args with
  | "-r" :: _ => { s with hashed := [], status := 0 }
  | _ => (s.out (String.join (s.hashed.map fun (_, p) => p ++ "\n"))).withStatus 0

/-- How a command name is found, written as `type` (`verbose`) or `command -v` do; status 127
when it is not found. -/
def describeCommand (s : Session) (name : Bytes) (verbose : Bool) : Session :=
  let say (text : Bytes) : Session := (s.out (text ++ "\n")).withStatus 0
  if (Keyword.ofText? name).isSome then say (if verbose then name ++ " is a shell keyword" else name)
  else
    match s.aliases.find? (·.1 == name) with
    | some (_, v) =>
      say (if verbose then name ++ " is an alias for " ++ v else "alias " ++ name ++ "=" ++ singleQuote v)
    | none =>
      match s.hashed.find? (·.1 == name) with
      | some (_, p) => say (if verbose then name ++ " is a tracked alias for " ++ p else p)
      | none =>
        if s.functions.any (·.1 == name) then
          say (if verbose then name ++ " is a shell function" else name)
        else if specialBuiltinNames.contains name then
          say (if verbose then name ++ " is a special shell builtin" else name)
        else if regularBuiltinNames.contains name then
          say (if verbose then name ++ " is a shell builtin" else name)
        else
          match whereIs s.files s.cwd ((s.lookup "PATH").getD "") name with
          | some p =>
            let s := if name.contains '/' then s else s.remember name p
            (s.out ((if verbose then name ++ " is " ++ p else p) ++ "\n")).withStatus 0
          | none =>
            if verbose then (s.out (name ++ ": not found\n")).withStatus 127 else s.withStatus 127

/-- `type names`. -/
def type (s : Session) (args : List Bytes) : Session :=
  let (s, worst) := args.foldl (fun (s, worst) n =>
    let s := s.describeCommand n true
    (s, max worst s.status)) (s, 0)
  s.withStatus worst

/-- Whether an option letter is in the option string of `getopts`, and whether it takes an
argument, marked by a `:` after it. -/
def optionSpec : List Char → Char → Option Bool
  | [], _ => none
  | q :: ':' :: qs, ch => if q == ch then some true else optionSpec qs ch
  | q :: qs, ch => if q == ch then some false else optionSpec qs ch

/-- `getopts optstring name [args]`: the next option of the arguments, or of the positional
parameters, in `name`, its argument in `OPTARG`, and the index of the next argument in `OPTIND`;
status 1 when the options are used up. -/
def getopts (s : Session) (c : Call) (args : List Bytes) : Session :=
  match args with
  | optstr :: var :: given =>
    let argv := if given.isEmpty then s.params else given
    let (ind, off) := if s.optIndex > argv.length + 1 then (1, none) else (s.optIndex, s.optOffset)
    let inWord : Option (List Char) :=
      match (if ind ≥ 2 then argv[ind - 2]? else none), off with
      | some w, some o => if o ≤ w.length then some (w.toList.drop o) else none
      | _, _ => none
    -- the letters to read and the index of the next word, or the end with that index
    let start : Sum (List Char × Nat) Nat :=
      match inWord with
      | some (l :: ls) => .inl (l :: ls, ind - 1)
      | _ =>
        match argv[ind - 1]? with
        | some w =>
          match w.toList with
          | ['-', '-'] => .inr ind
          | '-' :: l :: ls => .inl (l :: ls, ind)
          | _ => .inr (ind - 1)
        | none => .inr (ind - 1)
    let finish (s : Session) (next : Nat) (result : Bytes) (rest : Option (List Char))
        (status : Nat) : Session :=
      let offset := match rest, argv[next - 1]? with
        | some r, some w => some (w.length - r.length)
        | _, _ => none
      match s.setAll [("OPTIND", Nat.repr (next + 1)), (var, result)] with
      | .ok s => { s with optIndex := next + 1, optOffset := offset, status := status }
      | .error e => s.failIn c e
    let silent := optstr.startsWith ":"
    match start with
    | .inr next => finish s next "?" none 1
    | .inl (ch :: rest, next) =>
      match optionSpec optstr.toList ch with
      | none =>
        let s := if silent then s.setVars c [("OPTARG", String.singleton ch)]
          else
            let s := s.emit 2 ("Illegal option -" ++ String.singleton ch ++ "\n")
            match s.unsetVar "OPTARG" with
            | .ok s => s
            | .error _ => s
        finish s next "?" (some rest) 0
      | some true =>
        if rest.isEmpty then
          match argv[next]? with
          | some a => finish (s.setVars c [("OPTARG", a)]) (next + 1) (String.singleton ch) none 0
          | none =>
            if silent then finish (s.setVars c [("OPTARG", String.singleton ch)]) next ":" none 0
            else
              let s := s.emit 2 ("No arg for -" ++ String.singleton ch ++ " option\n")
              let s := match s.unsetVar "OPTARG" with
                | .ok s => s
                | .error _ => s
              finish s next "?" none 0
        else finish (s.setVars c [("OPTARG", String.ofList rest)]) next (String.singleton ch) none 0
      | some false => finish (s.setVars c [("OPTARG", "")]) next (String.singleton ch) (some rest) 0
    | .inl ([], next) => finish s next "?" none 1
  | _ => s.failIn c "Usage: getopts optstring var [arg]"

/-- A builtin that runs no commands, by name; none for a name that is not one. -/
def builtin? (s : Session) (c : Call) (args : List Bytes) : Option Session :=
  match c.name with
  | ":" | "true" => some (s.withStatus 0)
  | "false" => some (s.withStatus 1)
  | "echo" => some (s.echo args)
  | "printf" => some (s.printf c args)
  | "test" | "[" => some (s.test c args)
  | "pwd" => some (s.pwd c args)
  | "cd" | "chdir" => some (s.cd c args)
  | "read" => some (s.read c args)
  | "export" => some (s.markVars c false args)
  | "readonly" => some (s.markVars c true args)
  | "unset" => some (s.unset c args)
  | "local" => some (s.makeLocal c args)
  | "set" => some (s.set c args)
  | "shift" => some (s.shift c args)
  | "exit" => some (s.exit c args)
  | "return" => some (s.returnFrom c args)
  | "break" => some (s.leaveLoops c false args)
  | "continue" => some (s.leaveLoops c true args)
  | "alias" => some (s.setAliases args)
  | "unalias" => some (s.unalias c args)
  | "umask" => some (s.fileMask c args)
  | "trap" => some (s.trap args)
  | "kill" => some (s.kill c args)
  | "wait" => some (s.wait args)
  | "hash" => some (s.hash args)
  | "type" => some (s.type args)
  | "getopts" => some (s.getopts c args)
  | "jobs" | "bg" | "fg" => some (s.withStatus 0)
  | "times" => some ((s.out "0m0.000000s 0m0.000000s\n0m0.000000s 0m0.000000s\n").withStatus 0)
  | "ulimit" => some ((s.out "unlimited\n").withStatus 0)
  | _ => none

end Session

theorem quoteRuns_of_not_mem {cs : List Char} (h : '\'' ∉ cs) (fuel : Nat) :
    quoteRuns (fuel + 1) cs = '\'' :: cs ++ ['\''] := by
  have hall : ∀ c ∈ cs, (c != '\'') = true :=
    List.filter_eq_self.mp (List.filter_bne_eq_self_of_not_mem h)
  have htake := @List.takeWhile_append_of_pos _ (· != '\'') cs [] hall
  have hdrop := @List.dropWhile_append_of_pos _ (· != '\'') cs [] hall
  simp only [List.append_nil, List.takeWhile_nil, List.dropWhile_nil] at htake hdrop
  simp only [quoteRuns, htake, hdrop]

/-- A text without `'` is written between two. -/
theorem singleQuote_of_not_mem {b : Bytes} (h : '\'' ∉ b.toList) : singleQuote b = "'" ++ b ++ "'" :=
  String.toList_inj.mp (by simp [singleQuote, quoteRuns_of_not_mem h])

example : singleQuote "it's" = "'it'\"'\"'s'" := by decide

/-- `echo` of words without backslashes writes them as they are, a blank between two, and the
newline unless asked not to. -/
theorem echoWords_of_plain (newline : Bool) (ws : List Bytes) (h : ∀ w ∈ ws, '\\' ∉ w.toList) :
    Session.echoWords newline ws = (" ".intercalate ws).toList ++ (if newline then ['\n'] else []) := by
  induction ws with
  | nil => cases newline <;> rfl
  | cons a rest ih =>
    have ha : echoEscapes (a.length + 1) a.toList = (a.toList, false) :=
      echoEscapes_plain (h a List.mem_cons_self) (by rw [String.length_toList]; exact Nat.lt_succ_self _)
    cases rest with
    | nil => simp [Session.echoWords, ha]
    | cons b rest =>
      have hrest := ih fun w hw => h w (List.mem_cons_of_mem _ hw)
      simp [Session.echoWords, ha, hrest]

example : Session.echoWords true ["a\\tb", "c\\c", "d"] = "a\tb c".toList := by decide

end BuildRecipe.Shell
