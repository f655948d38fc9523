import BuildRecipe.Utility.Files
import BuildRecipe.Utility.Listing
import BuildRecipe.Utility.Text
import BuildRecipe.Utility.Columns
import BuildRecipe.Utility.Sort
import BuildRecipe.Utility.Translate
import BuildRecipe.Utility.Names
import BuildRecipe.Utility.Sequence
import BuildRecipe.Utility.Search
/-!
# Running a utility

Each utility a machine has, other than its shell, is a function from an invocation and the
files to a completion; `Utility.runFile` picks it. `true` and `false` only end, with code 0
and 1.

Main statements: `true` succeeds and changes nothing (`succeed_files`).
-/

namespace BuildRecipe.Utilities

/-- A utility other than the shell run on an invocation. -/
def runFile : Utility → Invocation → FileTree → Completion
  | .makeDirectory => makeDirectory
  | .touch => touch
  | .concatenate => concatenate
  | .list => list
  | .remove => remove
  | .copy => copy
  | .move => move
  | .changeMode => changeMode
  | .echo => echo
  | .removeDirectory => removeDirectory
  | .head => head
  | .tail => tail
  | .count => count
  | .tee => tee
  | .cut => cut
  | .sort => sort
  | .unique => unique
  | .translate => translate
  | .sequence => sequence
  | .stripDirectory => stripDirectory
  | .directoryPart => directoryPart
  | .workingDirectory => workingDirectory
  | .printEnvironment => printEnvironment
  | .pause => pause
  | .search => search
  | .succeed => fun _ files => ended files 0 "" ""
  | .fail => fun _ files => ended files 1 "" ""
  | .shell => fun _ files => ended files 0 "" ""

theorem succeed_files (inv : Invocation) (files : FileTree) :
    (runFile .succeed inv files).files = files ∧ (runFile .succeed inv files).exit = .code 0 :=
  ⟨rfl, rfl⟩

end BuildRecipe.Utilities

namespace BuildRecipe

/-- A utility other than the shell run on an invocation. -/
def Utility.runFile (u : Utility) (inv : Invocation) (files : FileTree) : Completion :=
  Utilities.runFile u inv files

end BuildRecipe
