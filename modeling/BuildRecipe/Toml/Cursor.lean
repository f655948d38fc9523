import BuildRecipe.Toml.Failure
import BuildRecipe.Toml.Item
/-!
# Reading with a cursor

A reader takes a cursor (the characters left and the byte offset reached) and gives a value
and the cursor after it, or a failure. A failure records the offset where reading stopped,
which is where a primitive refused, or where a rule checked after reading put it back.

The combinators follow one discipline. A failure that is not committed lets the caller try
something else from where it started: `optional`, `orElse` and the repetitions do so. A
committed failure is final. `cut` commits a failure, `context` adds to what it records, and
`check` turns a value that breaks a rule into a failure at the start of the value.

Main statements: reading nothing leaves the cursor as it was (`pure_run`), and a repetition
of a reader that always refuses reads nothing (`many_run_of_refuses`).
-/

namespace BuildRecipe.Toml

/-- Where reading stands: the characters left and the bytes read so far. -/
structure Cursor where
  rest : List Char
  offset : Nat
  deriving DecidableEq, Repr, Inhabited

/-- The cursor at the start of a text. -/
def Cursor.ofString (s : String) : Cursor := ⟨s.toList, 0⟩

/-- The cursor one character further. -/
def Cursor.next (c : Cursor) : Cursor :=
  match c.rest with
  | [] => c
  | ch :: rest => ⟨rest, c.offset + ch.utf8Size⟩

/-- A reader of values of type `α`. -/
abbrev Reader (α : Type) := StateT Cursor (Except Failure) α

namespace Reader

/-- The cursor, unchanged. -/
def here : Reader Cursor := get

/-- The next character, if any, without reading it. -/
def peek? : Reader (Option Char) := do return (← get).rest.head?

/-- The next two characters, if there are two, without reading them. -/
def peekTwo? : Reader (Option (Char × Char)) := do
  match (← get).rest with
  | a :: b :: _ => return some (a, b)
  | _ => return none

/-- A failure that is not committed, where the cursor stands. -/
def refuse : Reader α := do throw { offset := (← get).offset }

/-- A failure with a fault, where the cursor stands. -/
def refuseWith (x : Fault) : Reader α := do throw { offset := (← get).offset, fault := some x }

/-- One character satisfying `p`. -/
def satisfy (p : Char → Bool) : Reader Char := do
  let c ← get
  match c.rest with
  | ch :: _ => if p ch then set c.next; return ch else refuse
  | [] => refuse

/-- One character of any kind. -/
def anyChar : Reader Char := satisfy fun _ => true

/-- The given character. -/
def char (ch : Char) : Reader Unit := do let _ ← satisfy (· == ch)

/-- The given characters, all of them or nothing. -/
def literal (s : String) : Reader Unit := do
  let c ← get
  if s.toList.isPrefixOf c.rest then
    set (Cursor.mk (c.rest.drop s.length) (c.offset + s.utf8ByteSize))
  else refuse

/-- The longest run of characters satisfying `p`, with at most `limit` of them. -/
def takeUpTo (p : Char → Bool) (limit : Nat) : Reader (List Char) := do
  let c ← get
  let run := (c.rest.takeWhile p).take limit
  set (Cursor.mk (c.rest.drop run.length) (c.offset + (String.ofList run).utf8ByteSize))
  return run

/-- The longest run of characters satisfying `p`. -/
def takeWhile (p : Char → Bool) : Reader (List Char) := do
  let c ← get
  takeUpTo p c.rest.length

/-- The longest run of characters satisfying `p`, at least one. -/
def takeWhile1 (p : Char → Bool) : Reader (List Char) := do
  let run ← takeWhile p
  if run.isEmpty then refuse else return run

/-- The reader whose failures are committed. -/
def cut (r : Reader α) : Reader α := fun c =>
  match r c with
  | .ok v => .ok v
  | .error f => .error { f with committed := true }

/-- The reader whose failures record one more context. -/
def context (ctx : Context) (r : Reader α) : Reader α := fun c =>
  match r c with
  | .ok v => .ok v
  | .error f => .error (f.push ctx)

/-- The reader whose failures record a label. -/
def label (what : String) (r : Reader α) : Reader α := context (.label what) r

/-- The reader whose failures record an expectation. -/
def expecting (e : Expectation) (r : Reader α) : Reader α := context (.expected e) r

/-- The value of `r`, or nothing when `r` fails uncommitted; then the cursor stays. -/
def optional (r : Reader α) : Reader (Option α) := fun c =>
  match r c with
  | .ok (a, c') => .ok (some a, c')
  | .error f => if f.committed then .error f else .ok (none, c)

/-- `a`, or `b` from the same place when `a` fails uncommitted. -/
def orElse (a b : Reader α) : Reader α := fun c =>
  match a c with
  | .ok v => .ok v
  | .error f => if f.committed then .error f else b c

/-- The value of `r` without moving the cursor; a failure stands where `r` started. -/
def lookAhead (r : Reader α) : Reader α := fun c =>
  match r c with
  | .ok (a, _) => .ok (a, c)
  | .error f => .error { f with offset := c.offset }

/-- The value of `r` passed through a rule; a value that breaks it fails where it started,
uncommitted, with the rule's fault. -/
def check (r : Reader α) (rule : α → Except Fault β) : Reader β := fun c =>
  match r c with
  | .ok (a, c') =>
    match rule a with
    | .ok b => .ok (b, c')
    | .error x => .error { offset := c.offset, fault := some x }
  | .error f => .error f

/-- The value of `r` kept when `ok` holds of it; otherwise a failure where it started. -/
def guard (r : Reader α) (ok : α → Bool) : Reader α := fun c =>
  match r c with
  | .ok (a, c') => if ok a then .ok (a, c') else .error { offset := c.offset }
  | .error f => .error f

/-- The characters `r` reads, with its value. -/
def withTaken (r : Reader α) : Reader (α × List Char) := fun c =>
  match r c with
  | .ok (a, c') => .ok ((a, c.rest.take (c.rest.length - c'.rest.length)), c')
  | .error f => .error f

/-- The bytes `r` reads, as a span, with its value. -/
def withSpan (r : Reader α) : Reader (α × Span) := fun c =>
  match r c with
  | .ok (a, c') => .ok ((a, ⟨c.offset, c'.offset⟩), c')
  | .error f => .error f

/-- Values of `r` until it fails uncommitted or stops moving, from `c`. -/
def manyFrom (r : Reader α) (acc : List α) (c : Cursor) : Except Failure (List α × Cursor) :=
  match r c with
  | .ok (a, c') =>
    if c'.rest.length < c.rest.length then manyFrom r (a :: acc) c'
    else .ok ((a :: acc).reverse, c')
  | .error f => if f.committed then .error f else .ok (acc.reverse, c)
termination_by c.rest.length

/-- Values of `r`, as many as it gives. -/
def many (r : Reader α) : Reader (List α) := fun c => manyFrom r [] c

/-- Values of `r`, at least one. -/
def many1 (r : Reader α) : Reader (List α) := do
  let a ← r
  let rest ← many r
  return a :: rest

/-- Values of `item` after the first, each after a `sep`; a separator or item that fails
uncommitted ends the list before that separator. -/
def sepTail (item : Reader α) (sep : Reader Unit) : Reader (List α) :=
  many (do sep; item)

/-- One or more values of `item` separated by `sep`. -/
def sepBy1 (item : Reader α) (sep : Reader Unit) : Reader (List α) := do
  let a ← item
  let rest ← sepTail item sep
  return a :: rest

/-- Zero or more values of `item` separated by `sep`. -/
def sepBy (item : Reader α) (sep : Reader Unit) : Reader (List α) := do
  match ← optional item with
  | none => return []
  | some a =>
    let rest ← sepTail item sep
    return a :: rest

/-- Whether the text is read to its end. -/
def atEnd : Reader Bool := do return (← get).rest.isEmpty

/-- The end of the text. -/
def eof : Reader Unit := do if (← atEnd) then return () else refuse

end Reader

theorem pure_run (a : α) (c : Cursor) : (pure a : Reader α).run c = .ok (a, c) := rfl

theorem many_run_of_refuses (r : Reader α) (c : Cursor) (f : Failure) (hf : f.committed = false)
    (h : r c = .error f) : Reader.many r c = .ok ([], c) := by
  unfold Reader.many
  rw [Reader.manyFrom, h]
  simp [hf]

end BuildRecipe.Toml
