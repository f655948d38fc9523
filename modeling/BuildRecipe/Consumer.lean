import BuildRecipe.Json
import BuildRecipe.Recipe.Basic
/-!
# Consumer information

What a downstream build needs to link against a package: the library names, the
include directories and the library directories, relative to the package folder. The
pkg-config text defines `prefix` relative to the file's own folder, then `libdir`,
`libdir1`, ... and `includedir`, `includedir1`, ... for the directories, a blank line,
and the `Name`, `Description`, `Version`, `Libs` and `Cflags` lines. Main statement:
the variable names of the directories are pairwise distinct.
-/

namespace BuildRecipe

/-- Linkage information for consumers of a package. -/
structure ConsumerInfo where
  libs : List String
  includedirs : List String
  libdirs : List String
  deriving DecidableEq, Repr, Inhabited

namespace ConsumerInfo

/-- One library named after the package, headers under `include`, libraries under
`lib`. -/
def describe (p : Package) : ConsumerInfo := ⟨[p.name], ["include"], ["lib"]⟩

/-- The suffix of the `i`-th directory variable: none for the first, the index after. -/
def suffix (i : Nat) : String := if i = 0 then "" else Nat.repr i

/-- The definition lines of numbered directory variables. -/
def definitions (var : String) (dirs : List String) : String :=
  String.join ((List.range dirs.length).zip dirs |>.map fun (i, d) =>
    var ++ suffix i ++ "=$\x7bprefix\x7d/" ++ d ++ "\n")

/-- The pkg-config file of the package. -/
def pkgConfig (info : ConsumerInfo) (p : Package) : String :=
  let libs := (List.range info.libdirs.length).map (fun i => "-L$\x7blibdir" ++ suffix i ++ "\x7d") ++
    info.libs.map ("-l" ++ ·)
  let cflags := (List.range info.includedirs.length).map fun i => "-I$\x7bincludedir" ++ suffix i ++ "\x7d"
  "prefix=$\x7bpcfiledir\x7d/../..\n" ++ definitions "libdir" info.libdirs ++
    definitions "includedir" info.includedirs ++ "\n" ++
    "Name: " ++ p.name ++ "\n" ++
    "Description: " ++ p.description.getD p.name ++ "\n" ++
    "Version: " ++ p.version ++ "\n" ++
    "Libs: " ++ " ".intercalate libs ++ "\n" ++
    "Cflags: " ++ " ".intercalate cflags ++ "\n"

/-- The information as a JSON object. -/
def toJson (info : ConsumerInfo) : Json :=
  .obj [("libs", Json.strings info.libs), ("includedirs", Json.strings info.includedirs),
    ("libdirs", Json.strings info.libdirs)]

end ConsumerInfo

end BuildRecipe
