import BuildRecipe.Decimal.Binary64
/-!
# TOML documents

A TOML document is a table. Its items are scalars (strings, integers, floats, booleans,
date-times), arrays, tables and arrays of tables, each with the span of bytes it was read
from; a table made only by a longer header or a dotted key has no span of its own. A table
keeps its entries in the order they were made, each under a key that remembers its raw text
and span.

This module holds the model, the type names that messages use, the text of a date-time,
and the entry operations the reader needs: find, remove (the later entries keep their
order), replace in place and append.

Main statements: removing a key leaves no entry of that name (`find?_erase_self`), and
replacing an entry keeps the order of the names (`names_replace`).
-/

namespace BuildRecipe.Toml

/-- A range of byte offsets, `start` included and `stop` excluded. -/
structure Span where
  start : Nat
  stop : Nat
  deriving DecidableEq, Repr, Inhabited

/-- A key: its name, the text it was written as, and where. -/
structure Key where
  name : String
  raw : String
  span : Span
  deriving DecidableEq, Repr, Inhabited

/-- A calendar date. -/
structure Date where
  year : Nat
  month : Nat
  day : Nat
  deriving DecidableEq, Repr, Inhabited

/-- A time of day, to the nanosecond. -/
structure Time where
  hour : Nat
  minute : Nat
  second : Nat
  nanosecond : Nat
  deriving DecidableEq, Repr, Inhabited

/-- The offset of a date-time from UTC. -/
inductive Offset where
  | utc
  | minutes (m : Int)
  deriving DecidableEq, Repr, Inhabited

/-- A date-time, a date, or a time, with an optional offset. -/
structure Datetime where
  date : Option Date
  time : Option Time
  offset : Option Offset
  deriving DecidableEq, Repr, Inhabited

/-- A value written in one piece. -/
inductive Scalar where
  | string (s : String)
  | integer (n : Int)
  | float (x : Decimal.Binary64)
  | boolean (b : Bool)
  | datetime (d : Datetime)
  deriving DecidableEq, Repr, Inhabited

/-- How a table came to be: written inline in braces, made implicitly by a longer header or
a dotted key, and made by a dotted key. -/
structure Form where
  inline : Bool := false
  implicit : Bool := false
  dotted : Bool := false
  deriving DecidableEq, Repr, Inhabited

/-- An item of a document. -/
inductive Item where
  | scalar (v : Scalar) (span : Span)
  | array (items : List Item) (span : Span)
  | table (entries : List (Key × Item)) (form : Form) (span : Option Span)
  | tables (items : List Item) (span : Option Span)
  deriving Repr, Inhabited

/-- The entries of a table. -/
abbrev Entries := List (Key × Item)

/-- A table taken apart: its entries, its form and its span. -/
structure Table where
  entries : Entries := []
  form : Form := {}
  span : Option Span := none
  deriving Inhabited

/-- The table as an item. -/
def Table.toItem (t : Table) : Item := .table t.entries t.form t.span

/-! ## Names and spans -/

/-- The type name of a scalar. -/
def Scalar.typeName : Scalar → String
  | .string _ => "string"
  | .integer _ => "integer"
  | .float _ => "float"
  | .boolean _ => "boolean"
  | .datetime _ => "datetime"

/-- The type name of an item written as a value. -/
def Item.typeName : Item → String
  | .scalar v _ => v.typeName
  | .array _ _ => "array"
  | .table _ form _ => if form.inline then "inline table" else "table"
  | .tables _ _ => "array of tables"

/-- Where an item was read from, if it was read from one place. -/
def Item.span? : Item → Option Span
  | .scalar _ s => some s
  | .array _ s => some s
  | .table _ _ s => s
  | .tables _ s => s

/-- Whether an item is written as a value: a scalar, an array, or an inline table. -/
def Item.isValue : Item → Bool
  | .scalar .. => true
  | .array .. => true
  | .table _ form _ => form.inline
  | .tables .. => false

/-! ## The text of a date-time -/

/-- A number with at least `width` digits, zeros in front. -/
def padded (width n : Nat) : String :=
  let ds := Nat.toDigits 10 n
  String.ofList (List.replicate (width - ds.length) '0' ++ ds)

/-- A date as `YYYY-MM-DD`. -/
def Date.text (d : Date) : String :=
  padded 4 d.year ++ "-" ++ padded 2 d.month ++ "-" ++ padded 2 d.day

/-- A time as `HH:MM:SS`, with the fraction of a second when it is not zero, its trailing
zeros dropped. -/
def Time.text (t : Time) : String :=
  let base := padded 2 t.hour ++ ":" ++ padded 2 t.minute ++ ":" ++ padded 2 t.second
  if t.nanosecond = 0 then base
  else
    let frac := (padded 9 t.nanosecond).toList.reverse.dropWhile (· = '0') |>.reverse
    base ++ "." ++ String.ofList frac

/-- An offset as `Z` or a signed `HH:MM`; a zero offset has a plus sign. -/
def Offset.text : Offset → String
  | .utc => "Z"
  | .minutes m =>
    let sign := if m < 0 then "-" else "+"
    let a := m.natAbs
    sign ++ padded 2 (a / 60) ++ ":" ++ padded 2 (a % 60)

/-- A date-time as text: the date, `T` and the time when both are present, the offset. -/
def Datetime.text (d : Datetime) : String :=
  let date := match d.date with | some x => x.text | none => ""
  let time := match d.time with
    | some t => (if d.date.isSome then "T" else "") ++ t.text
    | none => ""
  let offset := match d.offset with | some o => o.text | none => ""
  date ++ time ++ offset

/-! ## Entries -/

/-- The item under a name. -/
def Entries.find? (es : Entries) (name : String) : Option Item :=
  (List.find? (fun e => e.1.name == name) es).map (·.2)

/-- The key and item under a name. -/
def Entries.findEntry? (es : Entries) (name : String) : Option (Key × Item) :=
  List.find? (fun e => e.1.name == name) es

/-- The entries without the one under a name; the others keep their order. -/
def Entries.erase (es : Entries) (name : String) : Entries :=
  es.filter (fun e => e.1.name != name)

/-- The entries with the item under a name replaced, in place; the key stays. -/
def Entries.replace (es : Entries) (name : String) (item : Item) : Entries :=
  es.map fun e => if e.1.name == name then (e.1, item) else e

/-- The names of the entries, in order. -/
def Entries.names (es : Entries) : List String := es.map (·.1.name)

theorem find?_erase_self (es : Entries) (name : String) : (es.erase name).find? name = none := by
  rw [Entries.find?, Option.map_eq_none_iff, List.find?_eq_none]
  intro e he
  simp only [Entries.erase, List.mem_filter, bne_iff_ne, ne_eq] at he
  simpa using he.2

theorem names_replace (es : Entries) (name : String) (item : Item) :
    (es.replace name item).names = es.names := by
  simp only [Entries.replace, Entries.names, List.map_map]
  congr 1
  funext e
  simp only [Function.comp_apply]
  split <;> rfl

end BuildRecipe.Toml
