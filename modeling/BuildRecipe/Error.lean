/-!
# Errors

Every failure of reading a recipe or of a lifecycle step is one `Error`: its
constructor names the cause and carries the detail text. `Error.message` is the one
place where the wording lives, and `Error.step` names the lifecycle step the failure
belongs to. A failed external command belongs to packaging when its step name ends in
`install` or starts with `package`, and to building otherwise.
-/

namespace BuildRecipe

/-- Decimal text of an integer, with a minus sign when it is negative. -/
def intText (n : Int) : String :=
  match n with
  | .ofNat k => Nat.repr k
  | .negSucc k => "-" ++ Nat.repr (k + 1)

theorem intText_ofNat (k : Nat) : intText (k : Int) = Nat.repr k := rfl

/-- The cause of a failed recipe operation. -/
inductive Error where
  /-- The folder layout or the host (a missing tool, an unreadable folder) is wrong. -/
  | configuration (detail : String)
  /-- The toolchain files could not be written. -/
  | toolchain (detail : String)
  /-- An external command exited unsuccessfully; `code` is absent after a signal. -/
  | command (step : String) (code : Option Int) (stderr : String)
  /-- Fetching the sources failed. -/
  | fetch (detail : String)
  /-- The install step left no usable package behind. -/
  | packaging (detail : String)
  /-- A recipe or a command-line value could not be read. -/
  | parse (detail : String)
  /-- A second command was registered for one lifecycle stage. -/
  | duplicateHook (stage : String)
  /-- A file-system operation outside a specific step failed. -/
  | io (detail : String)
  deriving DecidableEq, Repr, Inhabited

namespace Error

/-- The exit code of a failed command as text, `none` after a signal. -/
def codeText : Option Int → String
  | some c => intText c
  | none => "none"

/-- The text that reports the error. -/
def message : Error → String
  | configuration d => "Configuration error: " ++ d
  | toolchain d => "Toolchain generation failed: " ++ d
  | command step code stderr => step ++ " failed with exit code " ++ codeText code ++ "\n" ++ stderr
  | fetch d => "Source fetch failed: " ++ d
  | packaging d => "Packaging failed: " ++ d
  | parse d => "Parse error: " ++ d
  | duplicateHook s => "Duplicate handler for lifecycle hook '" ++ s ++ "'"
  | io d => "I/O error: " ++ d

/-- Whether a failed command's step belongs to packaging. -/
def packagingStep (step : String) : Bool :=
  "install".toList.isSuffixOf step.toList || "package".toList.isPrefixOf step.toList

/-- The lifecycle step a failure belongs to, if any. -/
def step : Error → Option String
  | configuration _ => some "layout"
  | toolchain _ => some "generate"
  | command s _ _ => some (if packagingStep s then "package" else "build")
  | fetch _ => some "source"
  | packaging _ => some "package"
  | parse _ | duplicateHook _ | io _ => none

theorem step_command_install (code : Option Int) (stderr : String) :
    (command "meson install" code stderr).step = some "package" := by
  simp [step, packagingStep]; decide

end Error

/-- A computation that may fail with an `Error`. -/
abbrev Outcome (α : Type) := Except Error α

end BuildRecipe
