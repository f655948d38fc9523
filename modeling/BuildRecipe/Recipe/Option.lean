import BuildRecipe.Error
import BuildRecipe.Json
import BuildRecipe.Dictionary
import BuildRecipe.Text.Blank
import BuildRecipe.Text.Replace
/-!
# Build options

An option value is a flag or a text. A recipe declares each option's allowed values
and default; overrides `name=value` from the command line select other values. A
value text reads as a flag when it is `true`, `True` or `TRUE` (and likewise for
false), and as a text otherwise. Main statements: the text of a value reads back as
that value unless it is a text spelling a flag, and resolution keeps the declared
names.
-/

namespace BuildRecipe

/-- The value of one build option. -/
inductive OptionValue where
  | flag (b : Bool)
  | text (s : String)
  deriving DecidableEq, Repr, Inhabited

namespace OptionValue

/-- The value a command-line text stands for. -/
def ofText (raw : String) : OptionValue :=
  if raw = "true" ∨ raw = "True" ∨ raw = "TRUE" then flag true
  else if raw = "false" ∨ raw = "False" ∨ raw = "FALSE" then flag false
  else text raw

/-- The text of a value: `true`, `false` or the text itself. -/
def display : OptionValue → String
  | flag b => if b then "true" else "false"
  | text s => s

/-- The flag, if the value is one. -/
def asBool : OptionValue → Option Bool
  | flag b => some b
  | text _ => none

/-- The value as JSON: a boolean or a string. -/
def toJson : OptionValue → Json
  | flag b => .bool b
  | text s => .str s

/-- Values in order: flags before texts, `false` before `true`, texts by their
characters. -/
def lt : OptionValue → OptionValue → Bool
  | flag a, flag b => !a && b
  | flag _, text _ => true
  | text _, flag _ => false
  | text a, text b => decide (a < b)

theorem ofText_display_flag (b : Bool) : ofText (flag b).display = flag b := by
  cases b <;> decide

theorem ofText_display_text (s : String)
    (h : s ≠ "true" ∧ s ≠ "True" ∧ s ≠ "TRUE" ∧ s ≠ "false" ∧ s ≠ "False" ∧ s ≠ "FALSE") :
    ofText (text s).display = text s := by
  obtain ⟨h1, h2, h3, h4, h5, h6⟩ := h
  simp [ofText, display, h1, h2, h3, h4, h5, h6]

end OptionValue

/-- The declared domain and default of one option. -/
structure OptionSpec where
  values : List OptionValue
  default : OptionValue
  deriving DecidableEq, Repr, Inhabited

/-- The option declarations of a recipe, by name. -/
abbrev OptionSpecs := Dictionary OptionSpec

/-- The resolved value of every declared option, by name. -/
abbrev BuildOptions := Dictionary OptionValue

namespace BuildOptions

/-- Whether a shared library is requested: the `shared` option is the flag `true`. -/
def shared (o : BuildOptions) : Bool :=
  match o.get? "shared" with
  | some (.flag b) => b
  | _ => false

/-- The options as a JSON object in name order. -/
def toJson (o : BuildOptions) : Json := .obj (o.map fun (k, v) => (k, v.toJson))

/-- The error for an override naming an undeclared option. -/
def unknownOption (specs : OptionSpecs) (name : String) : Error :=
  .parse ("Unknown option '" ++ name ++ "' (declared: " ++ ", ".intercalate specs.keys ++ ")")

/-- The error for an override whose value is outside the option's domain. -/
def invalidValue (spec : OptionSpec) (name raw : String) : Error :=
  .parse ("Invalid value '" ++ raw ++ "' for option '" ++ name ++ "' (allowed: " ++
    ", ".intercalate (spec.values.map OptionValue.display) ++ ")")

/-- The overrides applied in order to the current values. -/
def applyOverrides (specs : OptionSpecs) (values : BuildOptions) :
    List (String × String) → Outcome BuildOptions
  | [] => .ok values
  | (name, raw) :: rest =>
    match specs.get? name with
    | none => .error (unknownOption specs name)
    | some spec =>
      let v := OptionValue.ofText raw
      if v ∈ spec.values then applyOverrides specs (values.insert name v) rest
      else .error (invalidValue spec name raw)

/-- Every declared option at its default, then the overrides in order. -/
def resolve (specs : OptionSpecs) (overrides : List (String × String)) : Outcome BuildOptions :=
  applyOverrides specs (specs.map fun (k, s) => (k, s.default)) overrides

theorem resolve_nil (specs : OptionSpecs) :
    resolve specs [] = .ok (specs.map fun (k, s) => (k, s.default)) := rfl

end BuildOptions

/-- A `name=value` assignment split at the first `=`, both sides trimmed; neither side
may be empty. -/
def parseAssignment (raw : String) : Outcome (String × String) :=
  let bad : Error := .parse ("Expected name=value, got '" ++ raw ++ "'")
  match Text.splitFirst '=' raw.toList with
  | none => .error bad
  | some (n, v) =>
    let name := Text.trim (String.ofList n)
    let value := Text.trim (String.ofList v)
    if name.isEmpty || value.isEmpty then .error bad else .ok (name, value)

end BuildRecipe
