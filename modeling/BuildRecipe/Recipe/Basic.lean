import BuildRecipe.Json
import BuildRecipe.Recipe.Option
import BuildRecipe.Recipe.Stage
import BuildRecipe.Text.Replace
/-!
# Recipes

A recipe describes one release of a library: the package descriptor, the declared
options, the source depth, the header copy rule and the hooks. This module holds the
model, its defaults, the release tag `v<version>`, the folder a clone lands in, the
`%(..)s` substitution of hook commands, and the JSON form of each part.
-/

namespace BuildRecipe

/-- What a recipe says about the package itself. -/
structure Package where
  name : String
  version : String
  license : Option String := none
  author : Option String := none
  url : String
  description : Option String := none
  topics : List String := []
  exportsSources : List String := []
  deriving DecidableEq, Repr, Inhabited

/-- Where the sources come from: the clone depth, `0` for the full history. -/
structure SourceSection where
  depth : Nat := 1
  deriving DecidableEq, Repr, Inhabited

/-- Which headers are copied into the package after installing. -/
structure HeaderRule where
  pattern : String := "*.h"
  src : String := "code/logic/fossil/media"
  dst : String := "include/fossil/media"
  deriving DecidableEq, Repr, Inhabited

/-- A complete recipe. -/
structure Recipe where
  package : Package
  options : OptionSpecs := []
  source : SourceSection := {}
  headers : HeaderRule := {}
  hooks : List HookEntry := []
  deriving DecidableEq, Repr, Inhabited

/-- The tag of a release: `v` followed by the version. -/
def releaseTag (version : String) : String := "v" ++ version

namespace Recipe

/-- The release tag of the recipe's version. -/
def tag (r : Recipe) : String := releaseTag r.package.version

/-- The folder name a clone of the package url lands in: the last path segment of the
url without trailing slashes, without trailing `.git`, or the package name when that
is empty. -/
def cloneDirName (r : Recipe) : String :=
  let trimmed := Text.dropSuffixes ['/'] r.package.url.toList
  let last := Text.dropSuffixes ".git".toList (Text.afterLast '/' trimmed)
  if last.isEmpty then r.package.name else String.ofList last

/-- The template with the recipe's variables replaced, one variable after the other:
`%(name)s`, `%(version)s`, `%(url)s`, `%(build_folder)s`, `%(package_folder)s`. -/
def substitute (r : Recipe) (template buildFolder packageFolder : String) : String :=
  let step (s : String) (var value : String) := Text.replaceText s var value
  step (step (step (step (step template "%(name)s" r.package.name) "%(version)s"
    r.package.version) "%(url)s" r.package.url) "%(build_folder)s" buildFolder)
    "%(package_folder)s" packageFolder

end Recipe

/-- An optional text as JSON: the string or `null`. -/
def optionalText : Option String → Json
  | some s => .str s
  | none => .null

/-- The descriptor as a JSON object, members in declaration order. -/
def Package.toJson (p : Package) : Json :=
  .obj [("name", .str p.name), ("version", .str p.version), ("license", optionalText p.license),
    ("author", optionalText p.author), ("url", .str p.url),
    ("description", optionalText p.description), ("topics", Json.strings p.topics),
    ("exports_sources", Json.strings p.exportsSources)]

/-- An option declaration as a JSON object. -/
def OptionSpec.toJson (s : OptionSpec) : Json :=
  .obj [("values", .arr (s.values.map OptionValue.toJson)), ("default", s.default.toJson)]

/-- The recipe as a JSON object. -/
def Recipe.toJson (r : Recipe) : Json :=
  .obj [("package", r.package.toJson),
    ("options", .obj (r.options.map fun (k, s) => (k, s.toJson))),
    ("source", .obj [("depth", .int r.source.depth)]),
    ("headers", .obj [("pattern", .str r.headers.pattern), ("src", .str r.headers.src),
      ("dst", .str r.headers.dst)]),
    ("hooks", .arr (r.hooks.map fun h => .obj [("stage", .str h.stage.name), ("run", .str h.run)]))]

theorem releaseTag_eq (v : String) : releaseTag v = "v" ++ v := rfl

end BuildRecipe
