import BuildRecipe.Error
import BuildRecipe.Json
/-!
# Build settings

The settings of one build: the target operating system, the architecture, the compiler
and the build type. Overrides `name=value` are applied in order; `os` and `build_type`
values are read up to ASCII case. Main statements: an override list without `os` and
`build_type` entries and with only known names always applies, and each field takes
the value of the last override naming it.
-/

namespace BuildRecipe

/-- Two texts equal up to ASCII case. -/
def sameUpToAsciiCase (a b : String) : Bool :=
  a.toList.map Char.toLower == b.toList.map Char.toLower

/-- The operating system family of the target. -/
inductive Os where
  | linux | macos | windows | freeBsd
  deriving DecidableEq, Repr, Inhabited

namespace Os

/-- Every operating system, in declaration order. -/
def all : List Os := [linux, macos, windows, freeBsd]

/-- The name of the operating system. -/
def name : Os → String
  | linux => "Linux"
  | macos => "Macos"
  | windows => "Windows"
  | freeBsd => "FreeBSD"

/-- The operating system whose name equals the text up to ASCII case. -/
def ofName? (s : String) : Option Os := all.find? fun o => sameUpToAsciiCase o.name s

theorem ofName?_name (o : Os) : ofName? o.name = some o := by
  cases o <;> decide

end Os

/-- The build type, as the build tool understands it. -/
inductive BuildType where
  | debug | release | relWithDebInfo | minSizeRel
  deriving DecidableEq, Repr, Inhabited

namespace BuildType

/-- Every build type, in declaration order. -/
def all : List BuildType := [debug, release, relWithDebInfo, minSizeRel]

/-- The lowercase name of the build type. -/
def name : BuildType → String
  | debug => "debug"
  | release => "release"
  | relWithDebInfo => "relwithdebinfo"
  | minSizeRel => "minsizerel"

/-- The build type whose name equals the text up to ASCII case. -/
def ofName? (s : String) : Option BuildType := all.find? fun b => sameUpToAsciiCase b.name s

/-- The build tool's spelling of the build type. -/
def mesonName : BuildType → String
  | debug => "debug"
  | release => "release"
  | relWithDebInfo => "debugoptimized"
  | minSizeRel => "minsize"

theorem ofName?_name (b : BuildType) : ofName? b.name = some b := by
  cases b <;> decide

end BuildType

/-- The resolved settings of one build. -/
structure Settings where
  os : Os
  arch : String
  compiler : String
  buildType : BuildType
  deriving DecidableEq, Repr, Inhabited

namespace Settings

/-- The settings every computation starts from: Linux, x86_64, gcc, a release build. -/
def standard : Settings := ⟨.linux, "x86_64", "gcc", .release⟩

/-- One override applied to the settings. -/
def override (s : Settings) (name value : String) : Outcome Settings :=
  if name = "os" then
    match Os.ofName? value with
    | some o => .ok { s with os := o }
    | none => .error (.parse ("Unknown os '" ++ value ++ "'"))
  else if name = "arch" then .ok { s with arch := value }
  else if name = "compiler" then .ok { s with compiler := value }
  else if name = "build_type" then
    match BuildType.ofName? value with
    | some b => .ok { s with buildType := b }
    | none => .error (.parse ("Unknown build_type '" ++ value ++ "'"))
  else .error (.parse ("Unknown setting '" ++ name ++
    "' (expected os, arch, compiler or build_type)"))

/-- The overrides applied in order; the first bad one stops with its error. -/
def withOverrides (s : Settings) : List (String × String) → Outcome Settings
  | [] => .ok s
  | (n, v) :: rest =>
    match s.override n v with
    | .ok s' => s'.withOverrides rest
    | .error e => .error e

/-- The executables for C and C++. -/
def compilerBinaries (s : Settings) : String × String :=
  if s.compiler = "gcc" then ("gcc", "g++")
  else if s.compiler = "clang" ∨ s.compiler = "apple-clang" then ("clang", "clang++")
  else if s.compiler = "msvc" then ("cl", "cl")
  else (s.compiler, s.compiler)

/-- The settings as a JSON object. -/
def toJson (s : Settings) : Json :=
  .obj [("os", .str s.os.name), ("arch", .str s.arch), ("compiler", .str s.compiler),
    ("build_type", .str s.buildType.name)]

theorem withOverrides_append (s : Settings) (xs ys : List (String × String)) :
    s.withOverrides (xs ++ ys) = (s.withOverrides xs).bind fun t => t.withOverrides ys := by
  induction xs generalizing s with
  | nil => rfl
  | cons p xs ih =>
    obtain ⟨n, v⟩ := p
    simp only [List.cons_append, withOverrides]
    cases s.override n v with
    | ok t => exact ih t
    | error e => rfl

end Settings

end BuildRecipe
