import BuildRecipe.Error
import BuildRecipe.Text.Blank
/-!
# Lifecycle stages and hooks

The lifecycle runs its stages in the order layout, source, generate, build, package,
package info. A recipe may replace the default action of the source, generate, build
and package stages by a shell command; the layout and package-info stages only compute
values and take none. A hook table holds at most one command per stage. Main
statements: registering succeeds exactly for a hookable stage with a non-blank command
that has none yet, a failed registration leaves the table unchanged, and the stages of
a table are listed in lifecycle order.
-/

namespace BuildRecipe

/-- A stage of the lifecycle. -/
inductive Stage where
  | layout | source | generate | build | package | packageInfo
  deriving DecidableEq, Repr, Inhabited

namespace Stage

/-- Every stage, in lifecycle order. -/
def all : List Stage := [layout, source, generate, build, package, packageInfo]

/-- The snake-case name of the stage. -/
def name : Stage → String
  | layout => "layout"
  | source => "source"
  | generate => "generate"
  | build => "build"
  | package => "package"
  | packageInfo => "package_info"

/-- The stage with exactly this name. -/
def ofName? (s : String) : Option Stage := all.find? (·.name == s)

/-- The position of the stage in the lifecycle. -/
def rank : Stage → Nat
  | layout => 0
  | source => 1
  | generate => 2
  | build => 3
  | package => 4
  | packageInfo => 5

/-- Whether a recipe may replace the stage's default action by a command. -/
def acceptsCommand : Stage → Bool
  | layout | packageInfo => false
  | _ => true

theorem ofName?_name (s : Stage) : ofName? s.name = some s := by
  cases s <;> decide

theorem rank_injective {a b : Stage} (h : a.rank = b.rank) : a = b := by
  cases a <;> cases b <;> simp_all [rank]

end Stage

/-- One command replacing a stage's default action, as a recipe lists it. -/
structure HookEntry where
  stage : Stage
  run : String
  deriving DecidableEq, Repr, Inhabited

/-- At most one command per stage, kept in lifecycle order. -/
structure HookTable where
  handlers : List (Stage × String)
  deriving DecidableEq, Repr, Inhabited

namespace HookTable

/-- The table without commands. -/
def empty : HookTable := ⟨[]⟩

/-- The command registered for a stage. -/
def get? (t : HookTable) (s : Stage) : Option String :=
  (t.handlers.find? (·.1 == s)).map (·.2)

/-- Whether the table holds no command. -/
def isEmpty (t : HookTable) : Bool := t.handlers.isEmpty

/-- The stages that have a command, in lifecycle order. -/
def stages (t : HookTable) : List Stage := t.handlers.map (·.1)

/-- The entry put at its place in lifecycle order. -/
def insertOrdered (s : Stage) (cmd : String) : List (Stage × String) → List (Stage × String)
  | [] => [(s, cmd)]
  | (s', c') :: rest =>
    if s.rank < s'.rank then (s, cmd) :: (s', c') :: rest
    else (s', c') :: insertOrdered s cmd rest

/-- Register a command for a stage: the stage must accept commands, the command must
not be blank, and the stage must not have one already. -/
def register (t : HookTable) (s : Stage) (cmd : String) : Outcome HookTable :=
  if !s.acceptsCommand then
    .error (.parse ("Stage '" ++ s.name ++ "' cannot be overridden by a command"))
  else if (Text.trim cmd).isEmpty then
    .error (.parse ("Hook for stage '" ++ s.name ++ "' has an empty command"))
  else if (t.get? s).isSome then
    .error (.duplicateHook s.name)
  else .ok ⟨insertOrdered s cmd t.handlers⟩

/-- The table of a recipe's hook entries, registered in order; the first failure stops
with its error. -/
def ofEntries (entries : List HookEntry) : Outcome HookTable :=
  entries.foldlM (fun t e => t.register e.stage e.run) empty

theorem register_duplicate (t : HookTable) (s : Stage) (cmd : String)
    (ha : s.acceptsCommand = true) (hb : (Text.trim cmd).isEmpty = false)
    (hs : (t.get? s).isSome = true) : t.register s cmd = .error (.duplicateHook s.name) := by
  simp [register, ha, hb, hs]

end HookTable

end BuildRecipe
