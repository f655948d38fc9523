import BuildRecipe.Text.Quoted
/-!
# Reading failures

A failure of the TOML reader records the byte offset where reading stopped, what was being
read (labels), what would have been accepted there (expectations), and the fault behind it
when a rule beyond the grammar was broken. A committed failure ends the reading; an
uncommitted one lets an alternative be tried.

The message of a failure is the first label as `invalid <label>`, the expectations as
`expected a, b`, and the fault's own text, each on a line of its own.

Main statements: a failure with nothing recorded has an empty message (`message_empty`), and
a failure with only a fault has the fault's text as its message (`message_fault`).
-/

namespace BuildRecipe.Toml

/-- What would have been accepted where reading stopped. -/
inductive Expectation where
  | char (c : Char)
  | literal (s : String)
  | description (s : String)
  deriving DecidableEq, Repr, Inhabited

/-- What a failure records about the reading around it. -/
inductive Context where
  | label (what : String)
  | expected (e : Expectation)
  deriving DecidableEq, Repr, Inhabited

/-- A rule beyond the grammar that a document broke. -/
inductive Fault where
  | duplicateKey (key : String) (table : Option (List String))
  | extendWrongType (path : List String) (actual : String)
  | outOfRange
  | recursionLimit
  | integerTooLarge
  | integerTooSmall
  deriving DecidableEq, Repr, Inhabited

/-- A failure of the reader. -/
structure Failure where
  offset : Nat
  contexts : List Context := []
  fault : Option Fault := none
  committed : Bool := false
  deriving DecidableEq, Repr, Inhabited

/-- The text of an expectation: a newline by name, a character or literal between
backticks (a backtick itself between single quotes), a description as it is. -/
def Expectation.text : Expectation → String
  | .char c =>
    if c = '\n' then "newline"
    else if c = '`' then "'`'"
    else if c.toNat < 0x20 ∨ c.toNat = 0x7F then
      "`" ++ String.ofList (Text.escape '"' c) ++ "`"
    else "`" ++ c.toString ++ "`"
  | .literal s => "`" ++ s ++ "`"
  | .description s => s

/-- The text of a fault. -/
def Fault.message : Fault → String
  | .duplicateKey key none => "duplicate key `" ++ key ++ "`"
  | .duplicateKey key (some []) => "duplicate key `" ++ key ++ "` in document root"
  | .duplicateKey key (some path) =>
    "duplicate key `" ++ key ++ "` in table `" ++ ".".intercalate path ++ "`"
  | .extendWrongType path actual =>
    "dotted key `" ++ ".".intercalate path ++ "` attempted to extend non-table type (" ++
      actual ++ ")"
  | .outOfRange => "value is out of range"
  | .recursionLimit => "recursion limit exceeded"
  | .integerTooLarge => "number too large to fit in target type"
  | .integerTooSmall => "number too small to fit in target type"

/-- The first label a failure records. -/
def Failure.label? (f : Failure) : Option String :=
  f.contexts.findSome? fun | .label w => some w | .expected _ => none

/-- The expectations a failure records, in the order they were added. -/
def Failure.expectations (f : Failure) : List Expectation :=
  f.contexts.filterMap fun | .expected e => some e | .label _ => none

/-- The message of a failure: its label, its expectations and its fault, one per line. -/
def Failure.message (f : Failure) : String :=
  let parts :=
    (match f.label? with | some w => ["invalid " ++ w] | none => []) ++
    (match f.expectations with
      | [] => []
      | es => ["expected " ++ ", ".intercalate (es.map Expectation.text)]) ++
    (match f.fault with | some x => [x.message] | none => [])
  "\n".intercalate parts

/-- The failure with one more context. -/
def Failure.push (f : Failure) (c : Context) : Failure := { f with contexts := f.contexts ++ [c] }

theorem message_empty (n : Nat) : ({ offset := n } : Failure).message = "" := by
  simp [Failure.message, Failure.label?, Failure.expectations]

theorem message_fault (n : Nat) (x : Fault) :
    ({ offset := n, fault := some x } : Failure).message = x.message := by
  simp [Failure.message, Failure.label?, Failure.expectations]

end BuildRecipe.Toml
