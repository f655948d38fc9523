import BuildRecipe.Machine
import BuildRecipe.Layout
/-!
# What a lifecycle drives

A lifecycle compiles nothing itself. It drives three capabilities, each an action on the
machine that succeeds with the output of what it ran or fails with an error:

* a build tool, which configures, compiles and installs the sources of a layout;
* a fetcher, which clones a release into a folder;
* a command shell, which runs a hook command for a named step in a folder, with extra
  environment variables.

Keeping them as parameters lets one lifecycle run with the real programs of a machine or
with stand-ins, and lets statements about the lifecycle hold for every behaviour of them.

Main statement: a build tool whose three calls only record themselves leaves exactly those
records (`recording_configure`).
-/

namespace BuildRecipe

/-- A build tool: configures, compiles and installs the sources of a layout. -/
structure BuildTool where
  configure : Layout → Act StepOutput
  build : Layout → Act StepOutput
  install : Layout → Act StepOutput

/-- A fetcher: clones a release into the request's folder. -/
structure Fetcher where
  fetch : FetchRequest → Act StepOutput

/-- A command shell: runs a command text for a named step in a folder, with extra
environment variables. -/
structure CommandShell where
  run : String → String → String → List (String × String) → Act StepOutput

/-- A build tool whose calls record their names and succeed with no output. -/
def BuildTool.recording : BuildTool where
  configure _ := do Act.record (.tool "configure"); return ⟨"", "", ""⟩
  build _ := do Act.record (.tool "build"); return ⟨"", "", ""⟩
  install _ := do Act.record (.tool "install"); return ⟨"", "", ""⟩

theorem recording_configure (l : Layout) (m : Machine) :
    (BuildTool.recording.configure l).run m =
      (.ok ⟨"", "", ""⟩, { m with journal := m.journal ++ [.tool "configure"] }) := rfl

end BuildRecipe
