import BuildRecipe.Recipe.Decode
/-!
# The built-in recipe

The recipe that ships with the tool, for the Fossil Media C library, as its TOML text. It
is read like any other recipe.
-/

namespace BuildRecipe

/-- The TOML text of the built-in recipe. -/
def builtinText : String :=
  "# Recipe for the Fossil Media C library\n" ++
  "\n" ++
  "[package]\n" ++
  "name = \"fossil_media\"\n" ++
  "version = \"0.1.1\"\n" ++
  "license = \"MPL-2.0\"\n" ++
  "author = \"Fossil Logic <michaelbrockus@gmail.com>\"\n" ++
  "url = \"https://github.com/fossillogic/fossil-media\"\n" ++
  "description = \"Fossil Media is a lightweight, portable data parsing and processing library written in pure C with zero external dependencies.\"\n" ++
  "topics = [\"c\", \"xml\", \"csv\", \"json\", \"cpp\", \"meson\", \"conan-recipe\", \"mesonbuild\", \"ninja-build\"]\n" ++
  "exports_sources = [\"code/**\", \"meson.build\", \"meson.options\"]\n" ++
  "\n" ++
  "[options.shared]\n" ++
  "values = [true, false]\n" ++
  "default = false\n" ++
  "\n" ++
  "[source]\n" ++
  "depth = 1\n" ++
  "\n" ++
  "[headers]\n" ++
  "pattern = \"*.h\"\n" ++
  "src = \"code/logic/fossil/media\"\n" ++
  "dst = \"include/fossil/media\"\n"

/-- The built-in recipe. -/
def builtinRecipe : Outcome Recipe := Decode.recipeOfToml builtinText

end BuildRecipe
