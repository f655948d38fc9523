import BuildRecipe.Machine
import BuildRecipe.Layout
import BuildRecipe.Toolchain.NativeFile
import BuildRecipe.Recipe.Basic
/-!
# Writing the toolchain files

Generating a toolchain writes two files into the build root, making it first: the native
file for the build tool, and a record of what it was generated for (package name and
version, settings, options and the native file's path) as indented JSON. Each failure
names the path it happened at.

Main statement: the record names the native file it was written beside
(`record_nativeFile`).
-/

namespace BuildRecipe

/-- The record of a generated toolchain. -/
def toolchainRecord (p : Package) (s : Settings) (o : BuildOptions) (nativeFile : String) : Json :=
  .obj [("package", .str p.name), ("version", .str p.version), ("settings", s.toJson),
    ("options", o.toJson), ("native_file", .str nativeFile)]

/-- Write one generated file. -/
def writeGenerated (path content : String) : Act Unit :=
  Act.change (fun e => .toolchain ("Failed to write " ++ path ++ ": " ++ e.message))
    (·.writeText · path content)

/-- Write the native file and the toolchain record into the build root, and name them. -/
def writeToolchainFiles (p : Package) (s : Settings) (o : BuildOptions) (l : Layout) :
    Act (List String) := do
  Act.change (fun e => .toolchain ("Failed to create build folder " ++ l.buildRoot ++ ": " ++
    e.message)) (·.createDirAll · l.buildRoot)
  writeGenerated l.nativeFile (NativeFile.ofConfig s o).render
  writeGenerated l.toolchainFile (toolchainRecord p s o l.nativeFile).render
  return [l.nativeFile, l.toolchainFile]

theorem record_nativeFile (p : Package) (s : Settings) (o : BuildOptions) (f : String) :
    toolchainRecord p s o f = .obj [("package", .str p.name), ("version", .str p.version),
      ("settings", s.toJson), ("options", o.toJson), ("native_file", .str f)] := rfl

end BuildRecipe
