import BuildRecipe.Toml.Document
import BuildRecipe.Recipe.Basic
import BuildRecipe.Decimal.Shortest
import BuildRecipe.Text.Quoted
/-!
# Reading a recipe from TOML

A recipe is read from the root table of its document. A record (the recipe, its package,
an option, the source and header sections, a hook) is read from a table, field by field in
the order the table gives them, fields it does not know ignored; then the first required
field that is missing, in the record's own order, is reported. A record may also be given as
an array, its fields by position. Lists are read from arrays, the options from a table by
name, a hook stage from its name, and an option value is a boolean or a string.

A message about a value is placed at that value; a message about a record, list or table
at that item; a table made only by a longer header has no place of its own and is placed
at its key.

Main statements: a string field reads as its text (`text_string`), and a depth reads only
from an integer within 32 bits (`depth_integer`).
-/

namespace BuildRecipe.Decode

open Toml

/-- A message about a recipe's document and the span it is about. -/
structure DecodeError where
  message : String
  span : Option Span
  deriving DecidableEq, Repr, Inhabited

/-- The error placed at `s` when it has no place yet. -/
def DecodeError.orAt (e : DecodeError) (s : Option Span) : DecodeError :=
  if e.span.isNone then { e with span := s } else e

/-- A reading whose errors without a place are placed at `s`. -/
def placedAt (s : Option Span) (r : Except DecodeError α) : Except DecodeError α :=
  match r with
  | .ok a => .ok a
  | .error e => .error (e.orAt s)

/-- A float as messages write it: its shortest text, with `.0` when that has no point. -/
def floatText (x : Decimal.Binary64) : String :=
  let t := x.text
  match x.magnitude with
  | .finite .. => if t.toList.contains '.' then t else t ++ ".0"
  | _ => t

/-- What an item is, as a message about an unexpected item says it. -/
def unexpected : Item → String
  | .scalar (.string s) _ => "string " ++ Text.quoteText s
  | .scalar (.integer n) _ => "integer `" ++ intText n ++ "`"
  | .scalar (.float x) _ => "floating point `" ++ floatText x ++ "`"
  | .scalar (.boolean b) _ => "boolean `" ++ (if b then "true" else "false") ++ "`"
  | .scalar (.datetime _) _ => "map"
  | .array .. => "sequence"
  | .tables .. => "sequence"
  | .table .. => "map"

/-- The error for an item of the wrong type. -/
def invalidType (item : Item) (expected : String) : DecodeError :=
  ⟨"invalid type: " ++ unexpected item ++ ", expected " ++ expected, none⟩

/-- An error without a place. -/
def unplaced (message : String) : DecodeError := ⟨message, none⟩

/-- The name a date-time's single entry has when it is read as a table. -/
def datetimeField : String := "$__toml_private_datetime"

/-- The entries of an item read as a table: a table's own, and for a date-time one entry
holding its text. -/
def tableEntries? : Item → Option Entries
  | .table es _ _ => some es
  | .scalar (.datetime d) s =>
    some [(⟨datetimeField, datetimeField, s⟩, .scalar (.string d.text) s)]
  | _ => none

/-! ## Scalars and lists -/

/-- A string. -/
def text (item : Item) : Except DecodeError String :=
  placedAt item.span? <|
    match item with
    | .scalar (.string s) _ => .ok s
    | _ => .error (invalidType item "a string")

/-- The largest value of 32 unsigned bits. -/
def maxDepth : Nat := 4294967295

/-- A clone depth: an integer of 32 unsigned bits. -/
def depth (item : Item) : Except DecodeError Nat :=
  placedAt item.span? <|
    match item with
    | .scalar (.integer n) _ =>
      if 0 ≤ n ∧ n ≤ maxDepth then .ok n.toNat
      else .error (unplaced ("invalid value: integer `" ++ intText n ++ "`, expected u32"))
    | _ => .error (invalidType item "u32")

/-- A list, each element read by `elem`. -/
def list (elem : Item → Except DecodeError α) (item : Item) : Except DecodeError (List α) :=
  placedAt item.span? <|
    match item with
    | .array items _ => items.mapM elem
    | .tables items _ => items.mapM elem
    | _ => .error (invalidType item "a sequence")

/-- An option value: a boolean or a string. Other items give an error without a place. -/
def optionValue (item : Item) : Except DecodeError OptionValue :=
  match item with
  | .scalar (.boolean b) _ => .ok (.flag b)
  | .scalar (.string s) _ => .ok (.text s)
  | _ => .error (unplaced "data did not match any variant of untagged enum OptionValue")

/-! ## Stages -/

/-- The stage a name names. -/
def stageNamed (name : String) : Except DecodeError Stage :=
  match Stage.ofName? name with
  | some s => .ok s
  | none => .error (unplaced ("unknown variant `" ++ name ++ "`, expected one of " ++
      ", ".intercalate (Stage.all.map fun s => "`" ++ s.name ++ "`")))

/-- The item after a stage given as a table's single key, which must be empty. -/
def emptyAfterStage (item : Item) : Except DecodeError Unit :=
  match item with
  | .tables items s => if items.isEmpty then .ok () else .error ⟨"expected empty array", s⟩
  | .array items s => if items.isEmpty then .ok () else .error ⟨"expected empty array", some s⟩
  | .table es _ s => if es.isEmpty then .ok () else .error ⟨"expected empty table", s⟩
  | other => .error ⟨"expected table, found " ++ other.typeName, other.span?⟩

/-- A stage given as the single key of a table. -/
def stageOfEntries (es : Entries) (s : Option Span) : Except DecodeError Stage :=
  match es with
  | [] => .error ⟨"expected table with exactly 1 entry, found empty table", s⟩
  | (k, v) :: _ => do
    let st ← placedAt (some k.span) (stageNamed k.name)
    emptyAfterStage v
    return st

/-- A hook stage: its name, or a table with the name as its single key. -/
def stage (item : Item) : Except DecodeError Stage :=
  placedAt item.span? <|
    match item with
    | .scalar (.string s) _ => stageNamed s
    | .table es form s =>
      if !form.inline then stageOfEntries es s
      else if es.isEmpty then .error ⟨"wanted exactly 1 element, found 0 elements", s⟩
      else if es.length != 1 then .error ⟨"wanted exactly 1 element, more than 1 element", s⟩
      else stageOfEntries es s
    | other => .error ⟨"wanted string or table", other.span?⟩

/-! ## Records -/

/-- Where a record's fields come from: a table's entries by name, or an array's items by
position. -/
inductive Fields where
  | named (entries : Entries)
  | positional (items : List Item)

/-- How a record is written in messages and the names of its fields in order. -/
structure Shape where
  name : String
  fields : List String

/-- What a message about a record given by position expects. -/
def Shape.expecting (s : Shape) : String :=
  "struct " ++ s.name ++ " with " ++ intText s.fields.length ++
    (if s.fields.length = 1 then " element" else " elements")

/-- The item given for a field, with where a message about it is placed. -/
def Fields.get? (fs : Fields) (shape : Shape) (field : String) : Option (Item × Option Span) :=
  match fs with
  | .named es =>
    (es.findEntry? field).map fun (k, item) => (item, (item.span?).orElse fun _ => some k.span)
  | .positional items =>
    match shape.fields.idxOf? field with
    | some i => items[i]?.map fun item => (item, none)
    | none => none

/-- Each field the record knows read by `check`, in the order the fields are given; the
first error wins. -/
def Fields.checkAll (fs : Fields) (shape : Shape)
    (check : String → Item → Except DecodeError Unit) : Except DecodeError Unit :=
  match fs with
  | .named es =>
    es.forM fun (k, item) =>
      if shape.fields.contains k.name then
        placedAt ((item.span?).orElse fun _ => some k.span) (check k.name item)
      else .ok ()
  | .positional items => (shape.fields.zip items).forM fun (f, item) => check f item

/-- A field that must be given. -/
def Fields.required (fs : Fields) (shape : Shape) (field : String)
    (read : Item → Except DecodeError α) : Except DecodeError α :=
  match fs.get? shape field with
  | some (item, place) => placedAt place (read item)
  | none =>
    match fs with
    | .named _ => .error (unplaced ("missing field `" ++ field ++ "`"))
    | .positional _ =>
      let i := (shape.fields.idxOf? field).getD 0
      .error (unplaced ("invalid length " ++ intText i ++ ", expected " ++ shape.expecting))

/-- A field that may be missing. -/
def Fields.optional (fs : Fields) (shape : Shape) (field : String)
    (read : Item → Except DecodeError α) : Except DecodeError (Option α) :=
  match fs.get? shape field with
  | some (item, place) => (placedAt place (read item)).map some
  | none => .ok none

/-- A record read from an item by `body`. -/
def record (shape : Shape) (item : Item) (body : Fields → Except DecodeError α) :
    Except DecodeError α :=
  placedAt item.span? <|
    match item with
    | .table es _ _ => body (.named es)
    | .scalar (.datetime _) _ => body (.named [])
    | .array items _ => body (.positional items)
    | .tables items _ => body (.positional items)
    | _ => .error (invalidType item ("struct " ++ shape.name))

/-- A reading with its value forgotten. -/
def ignoreValue (r : Except DecodeError α) : Except DecodeError Unit := r.map fun _ => ()

/-- The shape of an option declaration. -/
def specShape : Shape := ⟨"OptionSpec", ["values", "default"]⟩

/-- An option declaration. -/
def optionSpec (item : Item) : Except DecodeError OptionSpec :=
  record specShape item fun fs => do
    fs.checkAll specShape fun f i =>
      if f = "values" then ignoreValue (list optionValue i) else ignoreValue (optionValue i)
    let values ← fs.required specShape "values" (list optionValue)
    let default ← fs.required specShape "default" optionValue
    return ⟨values, default⟩

/-- The declared options, by name. -/
def options (item : Item) : Except DecodeError OptionSpecs :=
  placedAt item.span? <|
    match tableEntries? item with
    | some es => es.foldlM (fun d (k, v) => do
        let spec ← placedAt ((v.span?).orElse fun _ => some k.span) (optionSpec v)
        return d.insert k.name spec) []
    | none => .error (invalidType item "a map")

/-- The shape of the package descriptor. -/
def packageShape : Shape :=
  ⟨"PackageDescriptor",
   ["name", "version", "license", "author", "url", "description", "topics", "exports_sources"]⟩

/-- The package descriptor. -/
def package (item : Item) : Except DecodeError Package :=
  record packageShape item fun fs => do
    fs.checkAll packageShape fun f i =>
      if f = "topics" ∨ f = "exports_sources" then ignoreValue (list text i)
      else ignoreValue (text i)
    let name ← fs.required packageShape "name" text
    let version ← fs.required packageShape "version" text
    let license ← fs.optional packageShape "license" text
    let author ← fs.optional packageShape "author" text
    let url ← fs.required packageShape "url" text
    let description ← fs.optional packageShape "description" text
    let topics ← fs.optional packageShape "topics" (list text)
    let exportsSources ← fs.optional packageShape "exports_sources" (list text)
    return { name, version, license, author, url, description, topics := topics.getD [],
             exportsSources := exportsSources.getD [] }

/-- The shape of the source section. -/
def sourceShape : Shape := ⟨"SourceSection", ["depth"]⟩

/-- The source section. -/
def source (item : Item) : Except DecodeError SourceSection :=
  record sourceShape item fun fs => do
    fs.checkAll sourceShape fun _ i => ignoreValue (depth i)
    let d ← fs.optional sourceShape "depth" depth
    return { depth := d.getD 1 }

/-- The shape of the header rule. -/
def headersShape : Shape := ⟨"HeaderCopy", ["pattern", "src", "dst"]⟩

/-- The header rule. -/
def headers (item : Item) : Except DecodeError HeaderRule :=
  record headersShape item fun fs => do
    fs.checkAll headersShape fun _ i => ignoreValue (text i)
    let rule : HeaderRule := {}
    let pattern ← fs.optional headersShape "pattern" text
    let src ← fs.optional headersShape "src" text
    let dst ← fs.optional headersShape "dst" text
    return { pattern := pattern.getD rule.pattern, src := src.getD rule.src,
             dst := dst.getD rule.dst }

/-- The shape of a hook. -/
def hookShape : Shape := ⟨"HookEntry", ["stage", "run"]⟩

/-- A hook. -/
def hook (item : Item) : Except DecodeError HookEntry :=
  record hookShape item fun fs => do
    fs.checkAll hookShape fun f i =>
      if f = "stage" then ignoreValue (stage i) else ignoreValue (text i)
    let st ← fs.required hookShape "stage" stage
    let run ← fs.required hookShape "run" text
    return ⟨st, run⟩

/-- The shape of a recipe. -/
def recipeShape : Shape := ⟨"Recipe", ["package", "options", "source", "headers", "hooks"]⟩

/-- A recipe. -/
def recipe (item : Item) : Except DecodeError Recipe :=
  record recipeShape item fun fs => do
    fs.checkAll recipeShape fun f i =>
      if f = "package" then ignoreValue (package i)
      else if f = "options" then ignoreValue (options i)
      else if f = "source" then ignoreValue (source i)
      else if f = "headers" then ignoreValue (headers i)
      else ignoreValue (list hook i)
    let pkg ← fs.required recipeShape "package" package
    let opts ← fs.optional recipeShape "options" options
    let src ← fs.optional recipeShape "source" source
    let hdrs ← fs.optional recipeShape "headers" headers
    let hks ← fs.optional recipeShape "hooks" (list hook)
    return { package := pkg, options := opts.getD [], source := src.getD {},
             headers := hdrs.getD {}, hooks := hks.getD [] }

/-! ## From text -/

/-- The diagnostic of a reading error. -/
def DecodeError.diagnostic (e : DecodeError) : Diagnostic :=
  ⟨e.message, e.span.map fun s => (s.start, s.stop)⟩

/-- A recipe read from TOML text; the error's message is the diagnostic shown with the
text. -/
def recipeOfToml (source : String) : Outcome Recipe :=
  match Toml.read source with
  | .error d => .error (.parse ("Invalid recipe: " ++ d.render source))
  | .ok root =>
    match recipe root.toItem with
    | .ok r => .ok r
    | .error e => .error (.parse ("Invalid recipe: " ++ e.diagnostic.render source))

theorem text_string (s : String) (sp : Span) : text (.scalar (.string s) sp) = .ok s := rfl

theorem depth_integer (n : Nat) (sp : Span) (h : n ≤ maxDepth) :
    depth (.scalar (.integer n) sp) = .ok n := by
  have h' : ((n : Int) ≤ (maxDepth : Int)) := by exact_mod_cast h
  simp [depth, placedAt, h']

end BuildRecipe.Decode
