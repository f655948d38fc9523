import BuildRecipe.Toml.Builder
import BuildRecipe.Toml.Diagnostic
/-!
# Reading a TOML document

A document is an optional byte order mark, then lines: blank lines, comments, table
headers and key-value pairs. A header or pair must end its line, blanks and a comment
allowed after it. Each header and pair goes to the builder; a rule the builder enforces
fails at the start of the header or pair, and a failed header is reported as an invalid
table header.

Reading either gives the document's root table, or a diagnostic: the failure's message
and the one byte where reading stopped (none at the end of the text).

Main statements: a failure at the end of the text covers no byte (`diagnostic_at_end`), and
elsewhere the one byte where it stands (`diagnostic_inside`).
-/

namespace BuildRecipe.Toml

open Reader

/-- A failure as a diagnostic about the text it was read from. -/
def Failure.diagnostic (f : Failure) (source : String) : Diagnostic :=
  let stop := if f.offset = source.utf8ByteSize then f.offset else f.offset + 1
  ⟨f.message, some (f.offset, stop)⟩

/-- A reading of `r` whose result goes through `step`; a fault from `step` fails at the
start of the reading. -/
def applying (r : Reader α) (step : α → Except Fault β) : Reader β := check r step

/-- `std-table`: the header path and the span of the header. -/
def tableHeader : Reader (List Key × Span) := do
  let (path, span) ← withSpan do
    char '['
    let path ← cut key
    cut (expecting (.char ']') (expecting (.char '.') (char ']')))
    return path
  cut (expecting (.char '#') (expecting (.char '\n') lineTrailing))
  return (path, span)

/-- `array-table`: the header path and the span of the header. -/
def arrayTableHeader : Reader (List Key × Span) := do
  let (path, span) ← withSpan do
    literal "[["
    let path ← cut key
    cut (expecting (.literal "]]") (expecting (.char '.') (literal "]]")))
    return path
  cut (expecting (.char '#') (expecting (.char '\n') lineTrailing))
  return (path, span)

/-- A header of either kind, opening its section in the builder. -/
def header (b : Builder) : Reader Builder :=
  label "table header" do
    match ← peekTwo? with
    | none => refuse
    | some ('[', '[') => applying arrayTableHeader fun (path, span) => b.openArrayTable path span
    | some _ => applying tableHeader fun (path, span) => b.openTable path span

/-- `keyval = key keyval-sep val`, ending its line: the dotted path, the key, the value. -/
def pair : Reader (List Key × Key × Item) := do
  let keys ← key
  cut do
    expecting (.char '=') (expecting (.char '.') (char '='))
    blanks
    let v ← value
    blanks
    cut (expecting (.char '#') (expecting (.char '\n') lineTrailing))
    return (keys.dropLast, keys.getLast?.getD default, v)

/-- One line's worth of the document: what the next character announces. A failure that is
not committed ends the lines. -/
def line (b : Builder) : Reader Builder := do
  match ← peek? with
  | none => refuse
  | some '#' => cut (do comment; lineEnding; return b)
  | some '[' => cut (header b)
  | some '\n' => do newline; return b
  | some '\r' => do newline; return b
  | some _ => cut (applying pair fun (path, key, item) => b.addPair path key item)

/-- The lines of the document from a cursor, each followed by blanks. -/
def linesFrom (b : Builder) (c : Cursor) : Except Failure (Builder × Cursor) :=
  match (do let b' ← line b; blanks; return b').run c with
  | .ok (b', c') => if c'.rest.length < c.rest.length then linesFrom b' c' else .ok (b', c')
  | .error f => if f.committed then .error f else .ok (b, c)
termination_by c.rest.length

/-- The whole document read into a builder. -/
def document : Reader Builder := do
  let _ ← optional (char '\uFEFF')
  blanks
  let b ← fun c => linesFrom Builder.start c
  eof
  return b

/-- The root table of a TOML text, or a diagnostic. -/
def read (source : String) : Except Diagnostic Table :=
  match document.run (Cursor.ofString source) with
  | .error f => .error (f.diagnostic source)
  | .ok (b, _) =>
    match b.finish with
    | .ok t => .ok t
    | .error x => .error ⟨x.message, none⟩

theorem diagnostic_at_end (f : Failure) (s : String) (h : f.offset = s.utf8ByteSize) :
    (f.diagnostic s).span = some (f.offset, f.offset) := by
  simp [Failure.diagnostic, h]

theorem diagnostic_inside (f : Failure) (s : String) (h : f.offset ≠ s.utf8ByteSize) :
    (f.diagnostic s).span = some (f.offset, f.offset + 1) := by
  simp [Failure.diagnostic, h]

end BuildRecipe.Toml
