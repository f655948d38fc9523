/-!
# The command line's grammar

The program is called as `kiln COMMAND [OPTIONS]`. Every command takes the switches that
say where the recipe and the folders are and which tools to run; some take more, and
`export` also takes its destination as an operand. A switch has a long name and perhaps a
letter, and it is a flag, a single value (a second use is refused), a value that may be
given again and again, or a request for help or for the version.

The help texts and usage lines are drawn from this table:

* a command's usage is its name, `[OPTIONS]` when it has switches other than help and
  version, then its operands;
* a usage line that names the switches already given lists them in the order they were
  first given, then the operands;
* a listing puts a switch's help beside it when that fits, and on the next line, indented
  by ten columns, when some switch of the listing is long enough that the help would run
  past a line of 100 columns.

Main statements: the help switch is found by its letter (`switchByShort_help`), and a
complaint before anything was given shows the command's help usage (`usageFor_nil`).
-/

namespace BuildRecipe.Cli

/-- The name the program is called by. -/
def programName : String := "kiln"

/-- The version the program reports. -/
def programVersion : String := "0.1.0"

/-- What the program is for, first line of its help. -/
def programAbout : String := "Recipe orchestrator for Meson-built C libraries"

/-- How a switch takes values. -/
inductive Takes where
  /-- Present or absent. -/
  | flag
  /-- One value, named in help by the given word. -/
  | single (valueName : String)
  /-- One value per use, collected in order. -/
  | repeated (valueName : String)
  /-- Shows the help. -/
  | help
  /-- Shows the version. -/
  | version
  deriving DecidableEq, Repr, Inhabited

/-- A named argument of a command. -/
structure Switch where
  id : String
  long : String
  short : Option Char := none
  takes : Takes
  help : String
  default : Option String := none
  /-- The value is a count from 0 to 4294967295. -/
  count : Bool := false
  deriving DecidableEq, Repr, Inhabited

/-- A required positional argument of a command. -/
structure Operand where
  id : String
  valueName : String
  help : String
  deriving DecidableEq, Repr, Inhabited

/-- A command: its name, what it does, its switches in listing order and its operands. -/
structure Command where
  name : String
  about : String
  switches : List Switch
  operands : List Operand := []
  deriving DecidableEq, Repr, Inhabited

namespace Switch

/-- Whether the switch takes a value. -/
def takesValue (s : Switch) : Bool :=
  match s.takes with
  | .single _ | .repeated _ => true
  | _ => false

/-- The switch as messages show it: `--long`, then ` <VALUE>` when it takes one. -/
def display (s : Switch) : String :=
  match s.takes with
  | .single v | .repeated v => "--" ++ s.long ++ " <" ++ v ++ ">"
  | _ => "--" ++ s.long

/-- Whether the switch is the help or the version request. -/
def isBuiltIn (s : Switch) : Bool :=
  match s.takes with
  | .help | .version => true
  | _ => false

end Switch

/-- The operand as messages show it. -/
def Operand.display (o : Operand) : String := "<" ++ o.valueName ++ ">"

/-- The switch that shows the help. -/
def helpSwitch : Switch :=
  { id := "help", long := "help", short := some 'h', takes := .help, help := "Print help" }

/-- The switch that shows the version. -/
def versionSwitch : Switch :=
  { id := "version", long := "version", short := some 'V', takes := .version,
    help := "Print version" }

/-- The switches every command takes. -/
def recipeSwitches : List Switch :=
  [{ id := "recipe", long := "recipe", short := some 'r', takes := .single "RECIPE",
     help := "Recipe file (default: kiln.toml in the source folder, else built-in)" },
   { id := "source_folder", long := "source-folder", takes := .single "SOURCE_FOLDER",
     help := "Source folder (default: current directory)" },
   { id := "package_folder", long := "package-folder", takes := .single "PACKAGE_FOLDER",
     help := "Package staging folder (default: <source>/package)" },
   { id := "options", long := "option", short := some 'o', takes := .repeated "NAME=VALUE",
     help := "Option override, e.g. `shared=True` (repeatable)" },
   { id := "settings", long := "setting", short := some 's', takes := .repeated "NAME=VALUE",
     help := "Setting override, e.g. `build_type=Debug` (repeatable)" },
   { id := "meson", long := "meson", takes := .single "MESON", help := "Meson executable",
     default := some "meson" },
   { id := "git", long := "git", takes := .single "GIT", help := "Git executable",
     default := some "git" }]

/-- The switch of a job count. -/
def jobsSwitch : Switch :=
  { id := "jobs", long := "jobs", short := some 'j', takes := .single "JOBS",
    help := "Number of parallel compile jobs", count := true }

/-- A command with the common switches, its own ones, and help last. -/
def command (name about : String) (own : List Switch) (operands : List Operand) : Command :=
  ⟨name, about, recipeSwitches ++ own ++ [helpSwitch], operands⟩

/-- The commands, in listing order. -/
def commands : List Command :=
  [command "layout" "Show the source, build and package folders" [] [],
   command "source" "Clone the release tag of the upstream repository" [] [],
   command "generate" "Write Meson toolchain files into the build folder"
     [{ id := "fresh", long := "fresh", takes := .flag, help := "Remove the build folder first" }]
     [],
   command "build" "Configure and compile with Meson" [jobsSwitch] [],
   command "package" "Install into the package folder and copy headers" [] [],
   command "info" "Show linkage metadata for consumers"
     [{ id := "json", long := "json", takes := .flag, help := "Print as JSON" }] [],
   command "create" "Run the whole lifecycle"
     [{ id := "fetch", long := "fetch", takes := .flag,
        help := "Clone the release tag before building" },
      { id := "fresh", long := "fresh", takes := .flag,
        help := "Remove the build folder before generating" },
      jobsSwitch,
      { id := "log_file", long := "log-file", takes := .single "LOG_FILE",
        help := "Write the run log to this file" }]
     [],
   command "export" "Copy the recipe's exported sources into a folder" []
     [⟨"dest", "DEST", "Destination folder"⟩],
   command "inspect" "Validate the recipe and print it" [] []]

/-- The command that shows help for other commands. -/
def helpCommand : Command :=
  ⟨"help", "Print this message or the help of the given subcommand(s)", [], []⟩

/-- Every command name, the help command last. -/
def commandNames : List String := commands.map (·.name) ++ [helpCommand.name]

/-- The program's own switches. -/
def programSwitches : List Switch := [helpSwitch, versionSwitch]

/-- The switch of a command with a long name. -/
def Command.switchByLong? (c : Command) (long : String) : Option Switch :=
  c.switches.find? (·.long == long)

/-- The switch of a command with a letter. -/
def Command.switchByShort? (c : Command) (ch : Char) : Option Switch :=
  c.switches.find? (·.short == some ch)

/-- The switch of a command with an id. -/
def Command.switchById? (c : Command) (id : String) : Option Switch :=
  c.switches.find? (·.id == id)

/-- The full name of a command as usage lines give it. -/
def Command.fullName (c : Command) : String := programName ++ " " ++ c.name

/-! ## Usage lines -/

/-- The usage of a command as its help gives it. -/
def Command.helpUsage (c : Command) : String :=
  let options := if c.switches.any (!·.isBuiltIn) then " [OPTIONS]" else ""
  c.fullName ++ options ++ String.join (c.operands.map (" " ++ ·.display))

/-- The usage of a command naming the arguments already given (by id), in the order
given, then its operands. -/
def Command.givenUsage (c : Command) (given : List String) : String :=
  let named := given.eraseDups.filterMap c.switchById?
  c.fullName ++ String.join (named.map (" " ++ ·.display)) ++
    String.join (c.operands.map (" " ++ ·.display))

/-- The usage for a complaint: the help usage when nothing was given yet. -/
def Command.usageFor (c : Command) (given : List String) : String :=
  if given.isEmpty then c.helpUsage else c.givenUsage given

/-- The program's usage. -/
def programUsage : String := programName ++ " <COMMAND>"

/-- The program's usage naming the switches already given. -/
def programUsageFor (given : List String) : String :=
  let named := given.eraseDups.filterMap fun id => programSwitches.find? (·.id == id)
  if named.isEmpty then programUsage
  else programName ++ String.join (named.map (" " ++ ·.display)) ++ " <COMMAND>"

/-! ## Help texts -/

/-- A text of blanks. -/
def blanks (n : Nat) : String := String.ofList (List.replicate n ' ')

/-- The width help is laid out for. -/
def lineWidth : Nat := 100

/-- The help of a switch with its default. -/
def Switch.fullHelp (s : Switch) : String :=
  match s.default with
  | some d => s.help ++ " [default: " ++ d ++ "]"
  | none => s.help

/-- The head of a switch's line: its letter or four blanks, then the long name and value. -/
def Switch.head (s : Switch) : String :=
  let letter := match s.short with
    | some ch => "-" ++ String.singleton ch ++ ", "
    | none => "    "
  letter ++ s.display

/-- Whether a listing whose widest head is `widest` columns, with `margin` columns around
heads, puts a help `helpWidth` wide on the next line: when the heads take more than 40
percent of the line and the help does not fit in the rest. -/
def helpBelow (widest margin helpWidth : Nat) : Bool :=
  let taken := widest + margin
  lineWidth ≥ taken && taken * 10 > lineWidth * 4 && helpWidth > lineWidth - taken

/-- A listing of heads with helps: beside each other when all fit, else each help below its
head. Switch listings count a wider margin than listings of operands and commands. -/
def listing (margin : Nat) (rows : List (String × String)) : String :=
  let widest := rows.foldl (fun w (h, _) => max w h.length) 2
  let below := rows.any fun (_, help) => helpBelow widest margin help.length
  "\n".intercalate (rows.map fun (head, help) =>
    if below then "  " ++ head ++ "\n" ++ blanks 10 ++ help
    else "  " ++ head ++ blanks (widest + 2 - head.length) ++ help)

/-- The options listing of a command. -/
def optionsListing (ss : List Switch) : String :=
  listing 8 (ss.map fun s => (s.head, s.fullHelp))

/-- The help of a command. -/
def Command.helpText (c : Command) : String :=
  let arguments := if c.operands.isEmpty then []
    else ["Arguments:\n" ++ listing 4 (c.operands.map fun o => (o.display, o.help))]
  let options := if c.switches.isEmpty then [] else ["Options:\n" ++ optionsListing c.switches]
  c.about ++ "\n\nUsage: " ++ c.helpUsage ++ "\n\n" ++ "\n\n".intercalate (arguments ++ options) ++
    "\n"

/-- The help of the help command. -/
def helpCommandText : String :=
  helpCommand.about ++ "\n\nUsage: " ++ helpCommand.fullName ++ " [COMMAND]...\n\nArguments:\n" ++
    listing 4 [("[COMMAND]...", "Print help for the subcommand(s)")] ++ "\n"

/-- The program's help. -/
def programHelp : String :=
  let names := commands.map (fun c => (c.name, c.about)) ++ [(helpCommand.name, helpCommand.about)]
  programAbout ++ "\n\nUsage: " ++ programUsage ++ "\n\nCommands:\n" ++ listing 4 names ++
    "\n\nOptions:\n" ++ optionsListing programSwitches ++ "\n"

/-- The help of a command by name; the program's help for none. -/
def helpOf (c : Option Command) : String :=
  match c with
  | none => programHelp
  | some c => if c.name == helpCommand.name then helpCommandText else c.helpText

/-- The version line. -/
def versionText : String := programName ++ " " ++ programVersion ++ "\n"

theorem switchByShort_help (c : Command) (h : c.switches = recipeSwitches ++ [helpSwitch]) :
    c.switchByShort? 'h' = some helpSwitch := by
  simp [Command.switchByShort?, h, recipeSwitches, helpSwitch, List.find?]

theorem usageFor_nil (c : Command) : c.usageFor [] = c.helpUsage := rfl

end BuildRecipe.Cli
