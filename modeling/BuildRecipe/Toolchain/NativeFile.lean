import BuildRecipe.Settings
import BuildRecipe.Recipe.Option
/-!
# The build tool's native file

The native file tells the build tool which compilers to use and where to install: a
comment line, a blank line, a `[binaries]` section with `c` and `cpp`, a blank line, and
a `[built-in options]` section with `buildtype`, `default_library`, `prefix`, `libdir`
and `includedir`. Each value is a single-quoted literal in which a backslash and a
single quote are preceded by a backslash. Main statement: undoing the escapes of a
literal gives back its value.
-/

namespace BuildRecipe

/-- The fields of a native file. -/
structure NativeFile where
  c : String
  cpp : String
  buildtype : String
  defaultLibrary : String
  pre : String
  libdir : String
  includedir : String
  deriving DecidableEq, Repr, Inhabited

namespace NativeFile

/-- The native file for the settings and options of one build. -/
def ofConfig (s : Settings) (o : BuildOptions) : NativeFile :=
  { c := s.compilerBinaries.1
    cpp := s.compilerBinaries.2
    buildtype := s.buildType.mesonName
    defaultLibrary := if o.shared then "shared" else "static"
    pre := "/"
    libdir := "lib"
    includedir := "include" }

/-- The escaped characters of a literal's value. -/
def escape : List Char → List Char
  | [] => []
  | c :: cs => if c = '\\' ∨ c = '\'' then '\\' :: c :: escape cs else c :: escape cs

/-- The value of a literal's escaped characters. -/
def unescape : List Char → List Char
  | [] => []
  | '\\' :: c :: cs => c :: unescape cs
  | c :: cs => c :: unescape cs

/-- A single-quoted literal. -/
def literal (v : String) : String := String.ofList ('\'' :: escape v.toList ++ ['\''])

/-- The text of the native file. -/
def render (n : NativeFile) : String :=
  "# Generated by kiln; do not edit\n\n" ++
  "[binaries]\n" ++
  "c = " ++ literal n.c ++ "\n" ++
  "cpp = " ++ literal n.cpp ++ "\n" ++
  "\n" ++
  "[built-in options]\n" ++
  "buildtype = " ++ literal n.buildtype ++ "\n" ++
  "default_library = " ++ literal n.defaultLibrary ++ "\n" ++
  "prefix = " ++ literal n.pre ++ "\n" ++
  "libdir = " ++ literal n.libdir ++ "\n" ++
  "includedir = " ++ literal n.includedir ++ "\n"

theorem unescape_cons_of_ne (c : Char) (cs : List Char) (h : c ≠ '\\') :
    unescape (c :: cs) = c :: unescape cs := by
  cases cs with
  | nil => simp [unescape]
  | cons d ds => simp [unescape, h]

theorem unescape_escape (cs : List Char) : unescape (escape cs) = cs := by
  induction cs with
  | nil => rfl
  | cons c cs ih =>
    by_cases h : c = '\\' ∨ c = '\''
    · simp only [escape, h, if_true, unescape, ih]
    · simp only [escape, h, if_false]
      rw [unescape_cons_of_ne c _ (fun e => h (Or.inl e)), ih]

end NativeFile

end BuildRecipe
