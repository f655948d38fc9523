import BuildRecipe.Toml.Key
import BuildRecipe.Toml.Datetime
/-!
# TOML values

A value is chosen by its first character: a quote starts a string, `[` an array, `{` an
inline table, a sign or digit a date-time, float or integer (tried in that order), `t` and
`f` the booleans, `i` and `n` the special floats. Anything else is reported as a string that
was expected. Arrays and inline tables nest at most 79 deep.

An array holds values separated by commas, with blanks, comments and line ends anywhere
between them and a trailing comma allowed. An inline table holds `key = value` pairs on one
line, separated by commas; its dotted keys make tables inside it, and a key may be given
only once.

Main statements: an inline table with one plain key holds that key (`placeInline_single`),
and a key given twice is refused (`placeInline_duplicate`).
-/

namespace BuildRecipe.Toml

open Reader

/-- The deepest nesting of arrays and inline tables. -/
def nestingLimit : Nat := 79

/-- The form of a table made inside an inline table by a dotted key. -/
def dottedInlineForm : Form := { inline := true, implicit := true, dotted := true }

/-- Entries of an inline table with `item` placed under `key` after the dotted `path`; `form`
is the form of the table the entries belong to, and `named` the names walked so far. -/
def placeInline (form : Form) (es : Entries) (plain : Bool) (named : List String) (key : Key)
    (item : Item) : List Key → Except Fault Entries
  | [] =>
    if form.dotted == plain then .error (.duplicateKey key.name none)
    else match es.findEntry? key.name with
      | some (k, _) => .error (.duplicateKey k.name none)
      | none => .ok (es ++ [(key, item)])
  | k :: rest =>
    let names := named ++ [k.name]
    match es.findEntry? k.name with
    | none => do
      let inner ← placeInline dottedInlineForm [] plain names key item rest
      return es ++ [(k, .table inner dottedInlineForm none)]
    | some (_, .table sub subForm span) =>
      if subForm.inline && !subForm.implicit then .error (.duplicateKey k.name none)
      else if subForm.inline then do
        let inner ← placeInline subForm sub plain names key item rest
        return es.replace k.name (.table inner subForm span)
      else .error (.extendWrongType names "table")
    | some (_, other) => .error (.extendWrongType names other.typeName)

/-- The entries of an inline table from its pairs, in order. -/
def inlineEntries (pairs : List (List Key × Key × Item)) : Except Fault Entries :=
  pairs.foldlM (fun es (path, key, item) =>
    placeInline { inline := true } es path.isEmpty [] key item path) []

/-- `key = value` inside an inline table: the dotted path, the last key, the value. -/
def inlinePair (val : Reader Item) : Reader (List Key × Key × Item) := do
  let keys ← key
  cut do
    expecting (.char '=') (expecting (.char '.') (char '='))
    blanks
    let v ← val
    blanks
    return (keys.dropLast, keys.getLast?.getD default, v)

/-- `inline-table`, given the reader of the values inside it. -/
def inlineTable (val : Reader Item) : Reader Entries := do
  char '{'
  let es ← cut (check (do
      let pairs ← sepBy (inlinePair val) (char ',')
      blanks
      return pairs) inlineEntries)
  cut (expecting (.char '}') (label "inline table" (char '}')))
  return es

/-- `array-values`, given the reader of the values inside. -/
def arrayValues (val : Reader Item) : Reader (List Item) := do
  if (← peek?) == some ']' then return []
  let items ← sepBy (do trivia; let v ← val; trivia; return v) (char ',')
  if !items.isEmpty then
    let _ ← optional (char ',')
  trivia
  return items

/-- `array`, given the reader of the values inside it. -/
def array (val : Reader Item) : Reader (List Item) := do
  char '['
  let items ← cut (arrayValues val)
  cut (expecting (.char ']') (label "array" (char ']')))
  return items

/-- A failure for a value that should have been a string. -/
def asStringExpected (r : Reader α) : Reader α :=
  expecting (.char '\'') (expecting (.char '"') (label "string" r))

/-- A scalar value with its span. -/
def scalar (r : Reader Scalar) : Reader Item := do
  let (v, span) ← withSpan r
  return .scalar v span

/-- A value, given the reader of values nested one level deeper, or none when nesting is
exhausted. -/
def valueWith (nested : Option (Reader Item)) : Reader Item := do
  let start ← here
  let deeper : Reader Item := match nested with
    | some r => r
    | none => throw { offset := start.offset, fault := some .recursionLimit, committed := true }
  match ← peek? with
  | none => refuse
  | some ch =>
    if ch = '"' ∨ ch = '\'' then scalar (do return .string (← string))
    else if ch = '[' then do
      let (items, span) ← withSpan (match nested with
        | some _ => array deeper
        | none => do let _ ← deeper; return [])
      return .array items span
    else if ch = '{' then do
      let (es, span) ← withSpan (match nested with
        | some _ => inlineTable deeper
        | none => do let _ ← deeper; return [])
      return .table es { inline := true } (some span)
    else if ch = '+' ∨ ch = '-' ∨ ch.isDigit then
      scalar (orElse (do return .datetime (← datetime))
        (orElse (do return .float (← float)) (do return .integer (← integer))))
    else if ch = '_' then
      scalar (expecting (.description "leading digit") (do return .integer (← integer)))
    else if ch = '.' then
      scalar (expecting (.description "leading digit") (do return .float (← float)))
    else if ch = 't' then scalar (asStringExpected (do return .boolean (← trueValue)))
    else if ch = 'f' then scalar (asStringExpected (do return .boolean (← falseValue)))
    else if ch = 'i' then scalar (asStringExpected (do return .float (← infinity)))
    else if ch = 'n' then scalar (asStringExpected (do return .float (← notANumber)))
    else asStringExpected refuse

/-- A value with `room` more levels of nesting allowed. -/
def valueWithin : Nat → Reader Item
  | 0 => valueWith none
  | n + 1 => valueWith (some (valueWithin n))

/-- A value at the top of a key-value pair. -/
def value : Reader Item := valueWithin nestingLimit

theorem placeInline_single (key : Key) (item : Item) :
    placeInline { inline := true } [] true [] key item [] = .ok [(key, item)] := by
  simp [placeInline, Entries.findEntry?]

theorem placeInline_duplicate (es : Entries) (key k : Key) (old item : Item)
    (h : es.findEntry? key.name = some (k, old)) :
    placeInline { inline := true } es true [] key item [] = .error (.duplicateKey k.name none) := by
  simp [placeInline, h]

end BuildRecipe.Toml
