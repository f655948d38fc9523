import BuildRecipe.Program
import BuildRecipe.Utility.Options
/-!
# What every utility shares

A utility reads its options (`Utility.Options`), works through its operands, and ends with a
completion: an exit code, its writes, and the files. What it writes on standard output is held
until it ends, as a buffered stream is when it leads to a file or a pipe, so its messages on
standard error come first (`ended`). Paths in messages are quoted with single quotes, or with
double quotes when they hold one (`quoted`); a refused option or operand is followed by a hint
to ask for help.

Main statements: a completion made by `ended` holds its error text before its output
(`ended_writes`).
-/

namespace BuildRecipe.Utilities

/-- A path as messages quote it: in single quotes, or in double quotes when it has one. -/
def quoted (p : Bytes) : Bytes :=
  if p.contains '\'' then "\"" ++ p ++ "\"" else "'" ++ p ++ "'"

/-- A completion with code, what was written on standard error, then standard output. -/
def ended (files : FileTree) (code : Nat) (out err : Bytes) : Completion :=
  { exit := .code code, writes := Channel.push (Channel.push [] .err err) .out out, files }

/-- A tool's run on its read arguments; an argument that cannot be read ends it with `code`. -/
def withOptions (inv : Invocation) (files : FileTree) (t : OptionTable) (code : Nat)
    (k : ReadArgs → Completion) : Completion :=
  match readOptions inv.program t inv.args with
  | .error e => ended files code "" (e ++ helpHint inv.program)
  | .ok r => k r

/-- The message for missing operands. -/
def missingOperand (tool what : Bytes) : Bytes :=
  tool ++ ": missing " ++ what ++ "\nTry '" ++ tool ++ " --help' for more information.\n"

/-- The message for an operand that cannot be handled. -/
def complaint (tool what : Bytes) : Bytes := tool ++ ": " ++ what ++ "\n"

/-- The permission bits of a new file under a mask. -/
def newFileMode (mask : Nat) : Nat := 0o666 &&& (0o7777 ^^^ mask)

/-- The node a path names. -/
def nodeOf (t : FileTree) (cwd : Location) (p : Bytes) : Except IoFault Node :=
  t.metadata cwd (Bytes.toText p)

/-- The last name of a path, its trailing slashes ignored. -/
def baseName (p : Bytes) : Bytes :=
  let cs := (p.toList.reverse.dropWhile (· == '/')).reverse
  if cs.isEmpty then (if p.isEmpty then "" else "/")
  else String.ofList (cs.reverse.takeWhile (· != '/')).reverse

/-- A path below a folder path. -/
def below (dir name : Bytes) : Bytes :=
  if dir.endsWith "/" then dir ++ name else dir ++ "/" ++ name

/-- The lines of a program's standard input, as answers to its questions. -/
def answerLines (stdin : Bytes) : List Bytes :=
  if stdin.isEmpty then []
  else
    let ls := stdin.splitOn "\n"
    if ls.getLast? == some "" then ls.dropLast else ls

/-- Whether an answer says yes: it starts with `y` or `Y`. -/
def affirmative (a : Bytes) : Bool := a.startsWith "y" || a.startsWith "Y"

/-- A decimal number given to an option, such as a width. -/
def optionNumber (v : String) : Option Nat :=
  if !v.isEmpty && v.toList.all Char.isDigit then some v.toNat! else none

/-- The message for a refused use of a tool: the complaint, then the hint to ask for help. -/
def usage (tool what : Bytes) : Bytes := tool ++ ": " ++ what ++ "\n" ++ helpHint tool

theorem ended_writes (files : FileTree) (code : Nat) :
    (ended files code "out" "err").writes = [(.err, "err"), (.out, "out")] := rfl

end BuildRecipe.Utilities
