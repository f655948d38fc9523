/-!
# What the command line asks for

A request names one command and the values of its switches: where the recipe and the
folders are, the option and setting overrides in the order given, the build tool and the
fetcher to run, and what the command itself takes.

Main statement: every request carries the common switches (`Request.recipeArgs`), so the
folder and recipe lookup is one function for all commands.
-/

namespace BuildRecipe.Cli

/-- The values of the switches every command takes. -/
structure RecipeArgs where
  recipe : Option String := none
  sourceFolder : Option String := none
  packageFolder : Option String := none
  options : List String := []
  settings : List String := []
  meson : String := "meson"
  git : String := "git"
  deriving DecidableEq, Repr, Inhabited

/-- A command with its values. -/
inductive Request where
  | layout (a : RecipeArgs)
  | source (a : RecipeArgs)
  | generate (a : RecipeArgs) (fresh : Bool)
  | build (a : RecipeArgs) (jobs : Option Nat)
  | package (a : RecipeArgs)
  | info (a : RecipeArgs) (json : Bool)
  | create (a : RecipeArgs) (fetch fresh : Bool) (jobs : Option Nat) (logFile : Option String)
  | exportSources (a : RecipeArgs) (dest : String)
  | inspect (a : RecipeArgs)
  deriving DecidableEq, Repr, Inhabited

/-- The common switches of a request. -/
def Request.recipeArgs : Request → RecipeArgs
  | layout a | source a | generate a _ | build a _ | package a | info a _ | create a _ _ _ _
  | exportSources a _ | inspect a => a

theorem recipeArgs_build (a : RecipeArgs) (jobs : Option Nat) :
    (Request.build a jobs).recipeArgs = a := rfl

end BuildRecipe.Cli
