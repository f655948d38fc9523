import BuildRecipe.Cli.Grammar
import BuildRecipe.Cli.Request
import BuildRecipe.Text.Similarity
import BuildRecipe.Text.Replace
import BuildRecipe.Error
/-!
# Reading the command line

The arguments are read left to right. Before the command's name only the help and version
switches are known; the command's name hands the rest to the command, and `help` shows the
help of the commands named after it.

Within a command:

* `--` ends the switches: every later argument is an operand;
* `--name` or `--name=value` is a switch by its long name, `-x` a switch by its letter; letters
  may be grouped (`-hx`), and a letter that takes a value takes the rest of the group as it
  (`-j4`, `-j=4`);
* a switch that takes a value and has none attached takes the next argument, unless that
  looks like a switch;
* anything else is the next operand.

A value waiting for its switch is stored when the next switch is read, when an operand is
read, or at the end, and a value that cannot be stored is refused there. When the next
argument is unknown, the complaint is about that argument and the waiting value is stored
without complaint. A single-valued switch or a flag given twice is refused; a count is
read as a signed 64-bit number first and must then lie in 0..=4294967295.

A complaint says what is wrong, may give hints (known names whose Jaro similarity to the
one given is above 0.7, or tips), and shows a usage line; `For more information, try
'--help'.` ends it.

Main statements: asking for the help first shows it whatever follows (`parse_help_first`),
and a plus sign before digits is read past (`readSigned_plus`).
-/

namespace BuildRecipe.Cli

/-! ## Complaints -/

/-- A hint at the end of a complaint. -/
inductive Hint where
  /-- Known names like the one given. -/
  | similar (kind : String) (names : List String)
  /-- A tip in words. -/
  | tip (text : String)
  deriving DecidableEq, Repr, Inhabited

/-- A refusal of the command line: what is wrong, hints, and the usage line to show. -/
structure Complaint where
  message : String
  hints : List Hint := []
  usage : Option String := none
  deriving DecidableEq, Repr, Inhabited

/-- A name as complaints quote it. -/
def quote (s : String) : String := "'" ++ s ++ "'"

/-- The line of a hint of similar names. -/
def similarLine (kind : String) (names : List String) : String :=
  match names with
  | [n] => "  tip: a similar " ++ kind ++ " exists: " ++ quote n
  | ns => "  tip: some similar " ++ kind ++ "s exist: " ++ ", ".intercalate (ns.map quote)

/-- The text of a complaint: the message, the similar names, the tips, the usage line
and the pointer to the help. -/
def Complaint.render (c : Complaint) : String :=
  let similar := c.hints.filterMap fun
    | .similar kind names => some (similarLine kind names)
    | .tip _ => none
  let tips := c.hints.filterMap fun
    | .tip t => some t
    | .similar _ _ => none
  let similarPart := match similar with
    | [] => ""
    | l :: ls => "\n\n" ++ l ++ String.join (ls.map ("\n" ++ ·))
  let tipPart := if tips.isEmpty then ""
    else (if similar.isEmpty then "\n" else "") ++ String.join (tips.map ("\n  tip: " ++ ·))
  let usagePart := match c.usage with
    | some u => "\n\nUsage: " ++ u
    | none => ""
  "error: " ++ c.message ++ similarPart ++ tipPart ++ usagePart ++
    "\n\nFor more information, try '--help'.\n"

/-- What reading stops with instead of a request: help or version shown (status 0), or a
text on the error stream (status 2). -/
inductive Reply where
  | shown (text : String)
  | refused (text : String)
  deriving DecidableEq, Repr, Inhabited

/-- A complaint as a reply. -/
def Complaint.reply (c : Complaint) : Reply := .refused c.render

/-! ## Counts -/

/-- The largest signed 64-bit number. -/
def wordMax : Int := 9223372036854775807

/-- The smallest signed 64-bit number. -/
def wordMin : Int := -9223372036854775808

/-- Digits added to a number read so far, left to right, refused at the first character
that is no digit or at the first digit that leaves the signed 64-bit range. -/
def readDigits (negative : Bool) : Int → List Char → Except String Int
  | n, [] => .ok n
  | n, c :: rest =>
    if c.isDigit then
      let d : Int := (c.toNat - '0'.toNat : Nat)
      let n' := if negative then n * 10 - d else n * 10 + d
      if n' > wordMax then .error "number too large to fit in target type"
      else if n' < wordMin then .error "number too small to fit in target type"
      else readDigits negative n' rest
    else .error "invalid digit found in string"

/-- A signed 64-bit number: an optional sign, then digits. -/
def readSigned (cs : List Char) : Except String Int :=
  match cs with
  | [] => .error "cannot parse integer from empty string"
  | ['+'] | ['-'] => .error "invalid digit found in string"
  | '+' :: rest => readDigits false 0 rest
  | '-' :: rest => readDigits true 0 rest
  | _ => readDigits false 0 cs

/-- The largest count. -/
def countMax : Int := 4294967295

/-- A count: the number, or the value to show and the reason it is refused. -/
def readCount (text : String) : Except (String × String) Nat :=
  match readSigned text.toList with
  | .error reason => .error (text, reason)
  | .ok n =>
    if 0 ≤ n ∧ n ≤ countMax then .ok n.toNat
    else .error (intText n, intText n ++ " is not in 0..=" ++ intText countMax)

/-! ## What has been given -/

/-- The arguments given to a command, by id, in the order first given, with their values. -/
structure Given where
  entries : List (String × List String) := []
  deriving DecidableEq, Repr, Inhabited

namespace Given

/-- Whether an argument was given. -/
def has (g : Given) (id : String) : Bool := g.entries.any (·.1 == id)

/-- More values of an argument, which is added when new. -/
def add (g : Given) (id : String) (vs : List String) : Given :=
  if g.has id then ⟨g.entries.map fun (k, xs) => if k == id then (k, xs ++ vs) else (k, xs)⟩
  else ⟨g.entries ++ [(id, vs)]⟩

/-- The given without an argument. -/
def remove (g : Given) (id : String) : Given := ⟨g.entries.filter (·.1 != id)⟩

/-- The values of an argument. -/
def values (g : Given) (id : String) : List String :=
  ((g.entries.find? (·.1 == id)).map (·.2)).getD []

/-- The first value of an argument. -/
def value? (g : Given) (id : String) : Option String := (g.values id).head?

/-- The ids given, in order. -/
def ids (g : Given) : List String := g.entries.map (·.1)

end Given

/-! ## Reading a command's arguments -/

/-- Where a value goes. -/
inductive Target where
  | switch (s : Switch)
  | operand (o : Operand)
  deriving DecidableEq, Repr, Inhabited

/-- Values waiting for their switch or operand; `wantsValue` while the next plain argument
is still taken as a value. -/
structure Waiting where
  target : Target
  values : List String
  wantsValue : Bool
  deriving DecidableEq, Repr, Inhabited

/-- The state of reading a command's arguments. -/
structure Reading where
  given : Given := {}
  waiting : Option Waiting := none
  afterDashes : Bool := false
  operandsRead : Nat := 0
  deriving DecidableEq, Repr, Inhabited

/-- The complaint about a value given to a flag. -/
def unwantedValue (usage : String) (s : Switch) (v : String) : Complaint :=
  { message := "unexpected value " ++ quote v ++ " for " ++ quote s.display ++
      " found; no more were expected",
    usage := some usage }

/-- The complaint about a switch that takes a value and has none. -/
def missingValue (s : Switch) : Complaint :=
  { message := "a value is required for " ++ quote s.display ++ " but none was supplied" }

/-- The complaint about a switch given twice. -/
def givenTwice (c : Command) (s : Switch) : Complaint :=
  { message := "the argument " ++ quote s.display ++ " cannot be used multiple times",
    usage := some c.helpUsage }

/-- The complaint about a refused value. -/
def invalidValue (s : Switch) (shown reason : String) : Complaint :=
  { message := "invalid value " ++ quote shown ++ " for " ++ quote s.display ++ ": " ++ reason }

/-- The values of a switch as stored: counts are checked and kept as their number. -/
def checkValues (s : Switch) (vs : List String) : Except Complaint (List String) :=
  if s.count then
    vs.mapM fun v => match readCount v with
      | .ok n => .ok (Nat.repr n)
      | .error (shown, reason) => .error (invalidValue s shown reason)
  else .ok vs

/-- Record a switch as given, then its checked values. -/
def collect (s : Switch) (vs : List String) (r : Reading) : Reading × Option Reply :=
  let r := { r with given := r.given.add s.id [] }
  match checkValues s vs with
  | .ok stored => ({ r with given := r.given.add s.id stored }, none)
  | .error e => (r, some e.reply)

/-- Store values for a switch or an operand: the state reached, and the reply that ends
reading, if any. A help switch shows the command's help. -/
def store (c : Command) (t : Target) (vs : List String) (r : Reading) : Reading × Option Reply :=
  match t with
  | .operand o => ({ r with given := r.given.add o.id vs }, none)
  | .switch s =>
    match s.takes with
    | .help => (r, some (.shown (helpOf (some c))))
    | .version => (r, some (.shown versionText))
    | .flag =>
      if r.given.has s.id then ({ r with given := r.given.remove s.id }, some (givenTwice c s).reply)
      else ({ r with given := r.given.add s.id ["true"] }, none)
    | .single _ =>
      if vs.isEmpty then (r, some (missingValue s).reply)
      else if r.given.has s.id then ({ r with given := r.given.remove s.id }, some (givenTwice c s).reply)
      else collect s vs r
    | .repeated _ =>
      if vs.isEmpty then (r, some (missingValue s).reply) else collect s vs r

/-- Store the waiting values, if any. -/
def settle (c : Command) (r : Reading) : Reading × Option Reply :=
  match r.waiting with
  | none => (r, none)
  | some w => store c w.target w.values { r with waiting := none }

/-- Store the waiting values, then new ones. -/
def settleThenStore (c : Command) (t : Target) (vs : List String) (r : Reading) :
    Except Reply Reading :=
  match settle c r with
  | (_, some e) => .error e
  | (r, none) =>
    match store c t vs r with
    | (_, some e) => .error e
    | (r, none) => .ok r

/-- Store the waiting values, then wait for a value of a switch. -/
def settleThenWait (c : Command) (s : Switch) (r : Reading) : Except Reply Reading :=
  match settle c r with
  | (_, some e) => .error e
  | (r, none) => .ok { r with waiting := some ⟨.switch s, [], true⟩ }

/-- The tip for an argument that was perhaps meant as an operand. -/
def asValueTip (arg : String) : Hint :=
  .tip ("to pass " ++ quote arg ++ " as a value, use " ++ quote ("-- " ++ arg))

/-- The complaint about an unknown long switch of a command. -/
def unknownLong (c : Command) (name : String) (r : Reading) : Complaint :=
  let arg := "--" ++ name
  match Text.suggestion? name (c.switches.map (·.long)) with
  | some long =>
    let given := match c.switchByLong? long with
      | some s => (r.given.add s.id []).ids
      | none => r.given.ids
    { message := "unexpected argument " ++ quote arg ++ " found",
      hints := [.similar "argument" ["--" ++ long]],
      usage := some (c.usageFor given) }
  | none =>
    { message := "unexpected argument " ++ quote arg ++ " found",
      hints := if !r.afterDashes && !c.operands.isEmpty then [asValueTip arg] else [],
      usage := some (c.usageFor r.given.ids) }

/-- The complaint about an unknown letter of a command. -/
def unknownShort (c : Command) (ch : Char) : Complaint :=
  let arg := "-" ++ String.singleton ch
  { message := "unexpected argument " ++ quote arg ++ " found",
    hints := if !c.operands.isEmpty then [asValueTip arg] else [],
    usage := some c.helpUsage }

/-- A long switch of a command, with its attached value if any. -/
def readLong (c : Command) (name : String) (attached : Option String) (r : Reading) :
    Except Reply Reading :=
  match c.switchByLong? name with
  | none => .error (unknownLong c name (settle c r).1).reply
  | some s =>
    if s.takesValue then
      match attached with
      | some v => settleThenStore c (.switch s) [v] r
      | none => settleThenWait c s r
    else
      match attached with
      | some v =>
        let given := (r.given.entries.filter fun (id, _) => !(c.operands.any (·.id == id))).map (·.1)
        .error (unwantedValue (c.usageFor (given ++ [s.id])) s v).reply
      | none => settleThenStore c (.switch s) [] r

/-- A group of letters of a command. -/
def readShorts (c : Command) : List Char → Reading → Except Reply Reading
  | [], r => .ok r
  | ch :: rest, r =>
    match c.switchByShort? ch with
    | none => .error (unknownShort c ch).reply
    | some s =>
      if !s.takesValue then
        match settleThenStore c (.switch s) [] r with
        | .ok r => readShorts c rest r
        | .error e => .error e
      else
        match rest with
        | [] => settleThenWait c s r
        | '=' :: v => settleThenStore c (.switch s) [String.ofList v] r
        | v => settleThenStore c (.switch s) [String.ofList v] r

/-- An operand of a command: the next one, or a complaint when all are taken. -/
def readOperand (c : Command) (a : String) (r : Reading) : Except Reply Reading :=
  match settle c r with
  | (_, some e) => .error e
  | (r, none) =>
    match c.operands[r.operandsRead]? with
    | some o => .ok { r with waiting := some ⟨.operand o, [a], false⟩,
                             operandsRead := r.operandsRead + 1 }
    | none => .error ({ message := "unexpected argument " ++ quote a ++ " found",
                        usage := some c.helpUsage } : Complaint).reply

/-- Whether an argument looks like a long switch. -/
def isLongForm (cs : List Char) : Bool :=
  match cs with
  | '-' :: '-' :: _ :: _ => true
  | _ => false

/-- Whether an argument looks like a group of letters. -/
def isShortForm (cs : List Char) : Bool :=
  match cs with
  | '-' :: c :: _ => c != '-'
  | _ => false

/-- A long switch's name and attached value. -/
def splitLong (body : List Char) : String × Option String :=
  match Text.splitFirst '=' body with
  | some (n, v) => (String.ofList n, some (String.ofList v))
  | none => (String.ofList body, none)

/-- One argument of a command. -/
def readArgument (c : Command) (a : String) (r : Reading) : Except Reply Reading :=
  let cs := a.toList
  if r.afterDashes then readOperand c a r
  else if a == "--" then .ok { r with afterDashes := true }
  else if isLongForm cs then
    let (name, attached) := splitLong (cs.drop 2)
    readLong c name attached r
  else if isShortForm cs then readShorts c cs.tail r
  else
    match r.waiting with
    | some w =>
      if w.wantsValue then .ok { r with waiting := some { w with values := w.values ++ [a], wantsValue := false } }
      else readOperand c a r
    | none => readOperand c a r

/-- The end of a command's arguments: the waiting values are stored and every operand must
have been given. -/
def finishCommand (c : Command) (r : Reading) : Except Reply Given :=
  match settle c r with
  | (_, some e) => .error e
  | (r, none) =>
    let missing := c.operands.drop r.operandsRead
    if missing.isEmpty then .ok r.given
    else .error ({ message := "the following required arguments were not provided:" ++
                    String.join (missing.map ("\n  " ++ ·.display)),
                   usage := some (c.usageFor (r.given.ids ++ missing.map (·.id))) } : Complaint).reply

/-- All arguments of a command. -/
def readCommandArgs (c : Command) : List String → Reading → Except Reply Given
  | [], r => finishCommand c r
  | a :: rest, r =>
    match readArgument c a r with
    | .ok r => readCommandArgs c rest r
    | .error e => .error e

/-! ## Reading the program's arguments -/

/-- The common switches' values. -/
def recipeArgsOf (g : Given) : RecipeArgs :=
  { recipe := g.value? "recipe", sourceFolder := g.value? "source_folder",
    packageFolder := g.value? "package_folder", options := g.values "options",
    settings := g.values "settings", meson := (g.value? "meson").getD "meson",
    git := (g.value? "git").getD "git" }

/-- A stored count. -/
def countOf? (g : Given) (id : String) : Option Nat := (g.value? id).bind String.toNat?

/-- The request of a command with the arguments given to it. -/
def requestOf (name : String) (g : Given) : Request :=
  let a := recipeArgsOf g
  match name with
  | "source" => .source a
  | "generate" => .generate a (g.has "fresh")
  | "build" => .build a (countOf? g "jobs")
  | "package" => .package a
  | "info" => .info a (g.has "json")
  | "create" => .create a (g.has "fetch") (g.has "fresh") (countOf? g "jobs") (g.value? "log_file")
  | "export" => .exportSources a ((g.value? "dest").getD "")
  | "inspect" => .inspect a
  | _ => .layout a

/-- The usage of the help command. -/
def helpCommandUsage : String := helpCommand.fullName ++ " [COMMAND]..."

/-- The help command: the help of the command named, or a complaint about a name that is
not a command there. -/
def readHelpCommand (names : List String) : Reply :=
  let rec walk (here : Option Command) : List String → Reply
    | [] => .shown (helpOf here)
    | n :: rest =>
      match here with
      | none =>
        match (commands ++ [helpCommand]).find? (·.name == n) with
        | some c => walk (some c) rest
        | none => ({ message := "unrecognized subcommand " ++ quote n,
                     usage := some programUsage } : Complaint).reply
      | some c =>
        ({ message := "unrecognized subcommand " ++ quote n,
           usage := some (if c.name == helpCommand.name then helpCommandUsage else c.helpUsage) } :
          Complaint).reply
  walk none names

/-- The complaint about an unknown long switch before the command: a similar switch of the
program, else the first command named later that has a similar switch. -/
def unknownProgramLong (name : String) (rest : List String) : Complaint :=
  let arg := "--" ++ name
  match Text.suggestion? name (programSwitches.map (·.long)) with
  | some long =>
    let id := ((programSwitches.find? (·.long == long)).map (·.id)).getD long
    { message := "unexpected argument " ++ quote arg ++ " found",
      hints := [.similar "argument" ["--" ++ long]], usage := some (programUsageFor [id]) }
  | none =>
    let later := (commands ++ [helpCommand]).filterMap fun c =>
      match Text.suggestion? name (c.switches.map (·.long)), rest.idxOf? c.name with
      | some long, some here => some (here, c.name, long)
      | _, _ => none
    let first := later.foldl (fun best x => match best with
      | some b => if x.1 < b.1 then some x else some b
      | none => some x) none
    { message := "unexpected argument " ++ quote arg ++ " found",
      hints := match first with
        | some (_, c, long) => [.tip (quote (c ++ " --" ++ long) ++ " exists")]
        | none => [],
      usage := some programUsage }

/-- The complaint about an argument before the command that is not a command. -/
def notACommand (a : String) (afterDashes : Bool) : Complaint :=
  if afterDashes && commandNames.contains a then
    { message := "unexpected argument '--' found",
      hints := [.tip ("subcommand " ++ quote a ++ " exists; to use it, remove the '--' before it")],
      usage := some programUsage }
  else
    match Text.similarWords a commandNames with
    | [] => { message := "unrecognized subcommand " ++ quote a, usage := some programUsage }
    | names => { message := "unrecognized subcommand " ++ quote a,
                 hints := [.similar "subcommand" names], usage := some programUsage }

/-- A group of letters before the command. -/
def readProgramShorts : List Char → Reply
  | [] => .refused programHelp
  | 'h' :: _ => .shown programHelp
  | 'V' :: _ => .shown versionText
  | ch :: _ => ({ message := "unexpected argument " ++ quote ("-" ++ String.singleton ch) ++ " found",
                  usage := some programUsage } : Complaint).reply

/-- The program's arguments: a request, or the reply that reading ends with. -/
def readProgram (afterDashes : Bool) : List String → Except Reply Request
  | [] => .error (.refused programHelp)
  | a :: rest =>
    let cs := a.toList
    if !afterDashes && a == helpCommand.name then .error (readHelpCommand rest)
    else if !afterDashes && (commands.find? (·.name == a)).isSome then
      match commands.find? (·.name == a) with
      | some c => (readCommandArgs c rest {}).map (requestOf c.name)
      | none => .error (.refused programHelp)
    else if !afterDashes && a == "--" then readProgram true rest
    else if !afterDashes && isLongForm cs then
      let (name, attached) := splitLong (cs.drop 2)
      match programSwitches.find? (·.long == name), attached with
      | some s, some v => .error (unwantedValue (programUsageFor [s.id]) s v).reply
      | some s, none => .error (.shown (if s.takes == .help then programHelp else versionText))
      | none, _ => .error (unknownProgramLong name rest).reply
    else if !afterDashes && isShortForm cs then .error (readProgramShorts cs.tail)
    else .error (notACommand a afterDashes).reply

/-- Read the program's arguments. -/
def parse (args : List String) : Except Reply Request := readProgram false args

/-- Asking for the program's help before anything else shows it, whatever follows: reading
stops there. -/
theorem parse_help_first (rest : List String) :
    parse ("--help" :: rest) = .error (.shown programHelp) := rfl

example : parse [] = .error (.refused programHelp) := rfl

theorem readSigned_plus (c : Char) (cs : List Char) :
    readSigned ('+' :: c :: cs) = readDigits false 0 (c :: cs) := rfl

end BuildRecipe.Cli
