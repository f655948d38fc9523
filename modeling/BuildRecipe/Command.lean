/-!
# Commands and their output

A command is a program and its arguments; its description is the program and the
arguments joined by single spaces. A step output records the description of the
command that ran and the texts it wrote to standard output and standard error. Main
statement: the description of a command without arguments is its program.
-/

namespace BuildRecipe

/-- A program and its arguments. -/
structure Command where
  program : String
  args : List String
  deriving DecidableEq, Repr, Inhabited

/-- The program and arguments joined by single spaces. -/
def Command.describe (c : Command) : String := " ".intercalate (c.program :: c.args)

/-- What a finished command reported. -/
structure StepOutput where
  command : String
  stdout : String
  stderr : String
  deriving DecidableEq, Repr, Inhabited

theorem Command.describe_nil (p : String) : (Command.mk p []).describe = p := by
  rfl

end BuildRecipe
