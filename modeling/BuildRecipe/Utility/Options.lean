import BuildRecipe.Text.Replace
/-!
# Reading a utility's options

The file utilities read their arguments as the GNU tools do. Options and operands may be
mixed: an argument that starts with `-`, other than `-` alone, is read as options, every other
argument is kept as an operand in its place among the operands, and `--` makes all the
arguments after it operands.

* `-abc` is a cluster of one-letter options. A letter that takes a value takes the rest of
  the cluster, or the next argument when the cluster ends with it.
* `--name` and `--name=value` are long options. A name given in full is that option; a
  shorter text stands for the options it begins, and is refused as ambiguous when they do not
  all set the same thing in the same way.

The first argument that cannot be read ends the reading with the message the tool prints
before its usage hint, each after `tool: `: `invalid option -- 'x'`, `option requires an
argument -- 'x'`, `unrecognized option '--x'`, `option '--x' is ambiguous; possibilities:
'--xa' '--xb'`, `option '--x' doesn't allow an argument` and `option '--x' requires an
argument`.

Main statements: without arguments nothing is read (`readOptions_nil`), and after `--`
every argument is an operand (`readOptions_dashes`).
-/

namespace BuildRecipe.Utilities

/-- Whether a long option takes a value. -/
inductive Arity where
  | none
  | required
  | optional
  deriving DecidableEq, Repr, Inhabited

/-- A long option: its name, the key it sets, and whether it takes a value. -/
structure LongOption where
  name : String
  key : String
  arity : Arity
  deriving DecidableEq, Repr, Inhabited

/-- The options a tool knows. A one-letter option sets the key that is its letter. -/
structure OptionTable where
  /-- The letters that take no value. -/
  flags : List Char
  /-- The letters that take a value. -/
  valued : List Char
  long : List LongOption
  deriving Repr, Inhabited

/-- What was read: each option's key with its value, in order, and the operands in order. -/
structure ReadArgs where
  options : List (String × Option String)
  operands : List String
  deriving DecidableEq, Repr, Inhabited

/-- Whether an option was given. -/
def ReadArgs.has (r : ReadArgs) (key : String) : Bool := r.options.any (·.1 == key)

/-- The value given last to an option. -/
def ReadArgs.value? (r : ReadArgs) (key : String) : Option String :=
  (r.options.filterMap fun (k, v) => if k == key then v else none).getLast?

/-- Whether any of some one-letter options was given. -/
def ReadArgs.hasAny (r : ReadArgs) (letters : List Char) : Bool :=
  letters.any fun c => r.has (String.singleton c)

-- ============================================================================
-- One argument
-- ============================================================================

/-- Read a cluster of one-letter options; the arguments after the cluster are `rest`. -/
def readCluster (tool : String) (t : OptionTable) :
    List Char → List String → Except String (List (String × Option String) × List String)
  | [], rest => .ok ([], rest)
  | c :: cs, rest =>
    let key := String.singleton c
    if t.valued.contains c then
      if !cs.isEmpty then .ok ([(key, some (String.ofList cs))], rest)
      else match rest with
        | v :: rest' => .ok ([(key, some v)], rest')
        | [] => .error (tool ++ ": option requires an argument -- '" ++ key ++ "'\n")
    else if t.flags.contains c then
      match readCluster tool t cs rest with
      | .ok (os, rest') => .ok ((key, none) :: os, rest')
      | .error e => .error e
    else .error (tool ++ ": invalid option -- '" ++ key ++ "'\n")

/-- The options a long option's name stands for: the one of that name, else those it begins.
The first of them is taken; the others that set something else make it ambiguous. -/
def longMatches (t : OptionTable) (name : String) : List LongOption :=
  match t.long.find? (·.name == name) with
  | some o => [o]
  | none =>
    match t.long.filter fun o => name.toList.isPrefixOf o.name.toList with
    | [] => []
    | o :: others => o :: others.filter fun p => p.key != o.key || p.arity != o.arity

/-- Read a long option given as `--text`; the arguments after it are `rest`. -/
def readLong (tool : String) (t : OptionTable) (text : String) (rest : List String) :
    Except String ((String × Option String) × List String) :=
  let (name, value) := match Text.splitFirst '=' text.toList with
    | some (n, v) => (String.ofList n, some (String.ofList v))
    | none => (text, none)
  match longMatches t name with
  | [] => .error (tool ++ ": unrecognized option '--" ++ text ++ "'\n")
  | [o] =>
    match o.arity, value with
    | .none, some _ => .error (tool ++ ": option '--" ++ o.name ++ "' doesn't allow an argument\n")
    | .none, none => .ok ((o.key, none), rest)
    | .optional, v => .ok ((o.key, v), rest)
    | .required, some v => .ok ((o.key, some v), rest)
    | .required, none =>
      match rest with
      | v :: rest' => .ok ((o.key, some v), rest')
      | [] => .error (tool ++ ": option '--" ++ o.name ++ "' requires an argument\n")
  | several =>
    .error (tool ++ ": option '--" ++ text ++ "' is ambiguous; possibilities:" ++
      String.join (several.map fun o => " '--" ++ o.name ++ "'") ++ "\n")

-- ============================================================================
-- All arguments
-- ============================================================================

/-- Read arguments; `fuel` bounds the steps, and each step reads at least one argument. -/
def readWithin (tool : String) (t : OptionTable) : Nat → List String → Except String ReadArgs
  | 0, args => .ok ⟨[], args⟩
  | _ + 1, [] => .ok ⟨[], []⟩
  | fuel + 1, a :: rest =>
    let cs := a.toList
    if a == "--" then .ok ⟨[], rest⟩
    else if cs.take 2 == ['-', '-'] then
      match readLong tool t (String.ofList (cs.drop 2)) rest with
      | .error e => .error e
      | .ok (o, rest') => (readWithin tool t fuel rest').map fun r => ⟨o :: r.options, r.operands⟩
    else if cs.head? == some '-' && cs.length > 1 then
      match readCluster tool t (cs.drop 1) rest with
      | .error e => .error e
      | .ok (os, rest') => (readWithin tool t fuel rest').map fun r => ⟨os ++ r.options, r.operands⟩
    else (readWithin tool t fuel rest).map fun r => ⟨r.options, a :: r.operands⟩

/-- Read a tool's arguments with its options table. -/
def readOptions (tool : String) (t : OptionTable) (args : List String) : Except String ReadArgs :=
  readWithin tool t args.length args

/-- The hint that follows a refused option. -/
def helpHint (tool : String) : String := "Try '" ++ tool ++ " --help' for more information.\n"

theorem readOptions_nil (tool : String) (t : OptionTable) : readOptions tool t [] = .ok ⟨[], []⟩ :=
  rfl

theorem readOptions_dashes (tool : String) (t : OptionTable) (rest : List String) :
    readOptions tool t ("--" :: rest) = .ok ⟨[], rest⟩ := by
  simp [readOptions, readWithin]

-- ============================================================================
-- The tables
-- ============================================================================

/-- A long option that sets the key of a letter, or its own name. -/
def longOf (name : String) (key : String) (arity : Arity) : LongOption := ⟨name, key, arity⟩

/-- `--help` and `--version`, which every tool knows. -/
def commonLong : List LongOption :=
  [longOf "help" "help" .none, longOf "version" "version" .none]

/-- The options of `mkdir`. -/
def mkdirTable : OptionTable where
  flags := ['p', 'v', 'Z']
  valued := ['m']
  long := [longOf "context" "Z" .optional, longOf "mode" "m" .required,
    longOf "parents" "p" .none, longOf "verbose" "v" .none] ++ commonLong

/-- The options of `touch`. -/
def touchTable : OptionTable where
  flags := ['a', 'c', 'f', 'h', 'm']
  valued := ['d', 'r', 't']
  long := [longOf "time" "time" .required, longOf "no-create" "c" .none,
    longOf "date" "d" .required, longOf "reference" "r" .required,
    longOf "no-dereference" "h" .none] ++ commonLong

/-- The options of `cat`. -/
def catTable : OptionTable where
  flags := ['b', 'e', 'n', 's', 't', 'u', 'v', 'A', 'E', 'T']
  valued := []
  long := [longOf "number-nonblank" "b" .none, longOf "number" "n" .none,
    longOf "squeeze-blank" "s" .none, longOf "show-nonprinting" "v" .none,
    longOf "show-ends" "E" .none, longOf "show-tabs" "T" .none,
    longOf "show-all" "A" .none] ++ commonLong

/-- The options of `rm`. -/
def rmTable : OptionTable where
  flags := ['d', 'f', 'i', 'r', 'v', 'I', 'R']
  valued := []
  long := [longOf "force" "f" .none, longOf "interactive" "interactive" .optional,
    longOf "one-file-system" "one-file-system" .none,
    longOf "no-preserve-root" "no-preserve-root" .none,
    longOf "preserve-root" "preserve-root" .optional,
    longOf "-presume-input-tty" "-presume-input-tty" .none,
    longOf "recursive" "r" .none, longOf "dir" "d" .none,
    longOf "verbose" "v" .none] ++ commonLong

/-- The options of `cp`. -/
def cpTable : OptionTable where
  flags := ['a', 'b', 'd', 'f', 'H', 'i', 'l', 'L', 'n', 'p', 'r', 's', 'u', 'v', 'x', 'P',
    'R', 'T', 'Z']
  valued := ['t', 'S']
  long := [longOf "archive" "a" .none, longOf "attributes-only" "attributes-only" .none,
    longOf "backup" "b" .optional, longOf "copy-contents" "copy-contents" .none,
    longOf "debug" "debug" .none, longOf "dereference" "L" .none, longOf "force" "f" .none,
    longOf "interactive" "i" .none, longOf "link" "l" .none, longOf "no-clobber" "n" .none,
    longOf "no-dereference" "P" .none, longOf "no-preserve" "no-preserve" .required,
    longOf "no-target-directory" "T" .none, longOf "one-file-system" "x" .none,
    longOf "parents" "parents" .none, longOf "path" "parents" .none,
    longOf "preserve" "preserve" .optional, longOf "recursive" "R" .none,
    longOf "remove-destination" "remove-destination" .none,
    longOf "sparse" "sparse" .required, longOf "reflink" "reflink" .optional,
    longOf "strip-trailing-slashes" "strip-trailing-slashes" .none,
    longOf "suffix" "S" .required, longOf "symbolic-link" "s" .none,
    longOf "target-directory" "t" .required, longOf "update" "u" .none,
    longOf "verbose" "v" .none, longOf "context" "Z" .optional] ++ commonLong

/-- The options of `mv`. -/
def mvTable : OptionTable where
  flags := ['b', 'f', 'i', 'n', 'u', 'v', 'T', 'Z']
  valued := ['t', 'S']
  long := [longOf "backup" "b" .optional, longOf "debug" "debug" .none,
    longOf "exchange" "exchange" .none, longOf "force" "f" .none,
    longOf "interactive" "i" .none, longOf "no-clobber" "n" .none,
    longOf "no-copy" "no-copy" .none,
    longOf "strip-trailing-slashes" "strip-trailing-slashes" .none,
    longOf "suffix" "S" .required, longOf "target-directory" "t" .required,
    longOf "no-target-directory" "T" .none, longOf "update" "u" .optional,
    longOf "verbose" "v" .none, longOf "context" "Z" .none] ++ commonLong

/-- The options of `chmod`. -/
def chmodTable : OptionTable where
  flags := ['c', 'f', 'v', 'R']
  valued := []
  long := [longOf "changes" "c" .none, longOf "silent" "f" .none, longOf "quiet" "f" .none,
    longOf "verbose" "v" .none, longOf "no-preserve-root" "no-preserve-root" .none,
    longOf "preserve-root" "preserve-root" .none, longOf "reference" "reference" .required,
    longOf "recursive" "R" .none] ++ commonLong


end BuildRecipe.Utilities
