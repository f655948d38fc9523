import BuildRecipe.Lifecycle.Tools
import BuildRecipe.Text.Replace
/-!
# Stand-in build tool and fetcher

A stand-in build tool records each call in the machine's journal and then behaves as a
small build would: configuring makes `meson-private` in the build root, building writes an
object file there, and installing either writes the listed paths into the package folder
or reads the native file and installs the library it asks for (a static archive, or a
shared library and its versioned name) with one header. A call named as failing records
itself and fails as a build command with the given code and error text.

A stand-in fetcher records each request and writes the sample sources of the library
into the requested folder, or fails as a missing release branch.

Main statement: a failing call is recorded before it fails (`step_failing`).
-/

namespace BuildRecipe

/-- The sample sources of the library, relative to their root, with their texts. -/
def sampleSources : List (String × String) :=
  [("code/logic/fossil/media/framework.h", "/* framework.h */\n"),
   ("code/logic/fossil/media/json.h", "/* json.h */\n"),
   ("code/logic/fossil/media/media.h", "/* media.h */\n"),
   ("code/logic/fossil/media/xml.h", "/* xml.h */\n"),
   ("code/logic/json.c", "int fossil_media_json;\n"),
   ("meson.build", "project('fossil_media', 'c')\n"),
   ("meson.options", "")]

/-- Write the sample sources below a folder. -/
def writeSampleSources (root : String) : Act Unit := do
  Act.change Error.ofFault (·.createDirAll · (Path.join root "code/logic/fossil/media"))
  for (rel, text) in sampleSources do
    Act.change Error.ofFault (·.writeText · (Path.join root rel) text)

/-- How a stand-in build tool behaves. -/
structure SimulatedTool where
  failOn : Option String := none
  code : Option Int := some 1
  stderr : String := "ninja: build stopped: subcommand failed."
  install : Option (List String) := none
  deriving DecidableEq, Repr, Inhabited

namespace SimulatedTool

/-- Record a call and answer it, or fail it when it is the failing one. -/
def step (s : SimulatedTool) (name : String) : Act StepOutput := do
  Act.record (.tool name)
  if s.failOn == some name then throw (.command ("meson " ++ name) s.code s.stderr)
  return ⟨"meson " ++ name, name ++ " ok", ""⟩

/-- Write a file below the package folder, making its folders. -/
def place (path content : String) : Act Unit := do
  match Path.parent? path with
  | some parent => Act.change Error.ofFault (·.createDirAll · parent)
  | none => pure ()
  Act.change Error.ofFault (·.writeText · path content)

/-- Install what the native file asks for, the library `name` at `version`. -/
def installLibrary (l : Layout) (name version : String) : Act Unit := do
  let native ← Act.attempt Error.ofFault (·.readText · l.nativeFile)
  let lib := Path.join l.packageFolder "lib"
  Act.change Error.ofFault (·.createDirAll · lib)
  if Text.occursIn "default_library = 'shared'".toList native.toList then
    Act.change Error.ofFault (·.writeText · (Path.join lib ("lib" ++ name ++ ".so." ++ version)) "ELF")
    Act.change Error.ofFault (·.writeText · (Path.join lib ("lib" ++ name ++ ".so")) "ELF")
  else
    Act.change Error.ofFault (·.writeText · (Path.join lib ("lib" ++ name ++ ".a")) "!<arch>\n")
  let headers := Path.join l.packageFolder "include/fossil/media"
  Act.change Error.ofFault (·.createDirAll · headers)
  Act.change Error.ofFault (·.writeText · (Path.join headers "media.h") "/* installed media.h */\n")

/-- The stand-in build tool for the library `name` at `version`. -/
def toBuildTool (s : SimulatedTool) (name version : String) : BuildTool where
  configure l := do
    let out ← s.step "configure"
    Act.change Error.ofFault (·.createDirAll · (Path.join l.buildRoot "meson-private"))
    return out
  build l := do
    let out ← s.step "build"
    Act.change Error.ofFault (·.writeText · (Path.join l.buildRoot "json.c.o") "ELF")
    return out
  install l := do
    let out ← s.step "install"
    match s.install with
    | some paths => for p in paths do place (Path.join l.packageFolder p) "lib"
    | none => installLibrary l name version
    return out

theorem step_failing (s : SimulatedTool) (name : String) (h : s.failOn = some name) (m : Machine) :
    (s.step name).run m =
      (.error (.command ("meson " ++ name) s.code s.stderr),
        { m with journal := m.journal ++ [.tool name] }) := by
  simp [step, h, Act.run, Act.record, bind, ExceptT.bind, ExceptT.bindCont, ExceptT.mk,
    Act.modify_eq_modifyGet, modifyGet, MonadStateOf.modifyGet, ExceptT.lift, StateT.modifyGet,
    StateT.bind, ExceptT.run, StateT.run, throw, throwThe, MonadExceptOf.throw, pure,
    Act.stateT_pure_apply, monadLift, MonadLift.monadLift, Functor.map, StateT.map, ExceptT.pure]

end SimulatedTool

/-- The error of a release branch that the remote does not have. -/
def missingBranch (tag : String) : Error :=
  .fetch ("Remote branch " ++ tag ++ " not found in upstream origin")

/-- A stand-in fetcher; a failing one refuses every request. -/
def simulatedFetcher (fail : Bool) : Fetcher where
  fetch r := do
    Act.record (.fetch r)
    if fail then throw (missingBranch r.tag)
    writeSampleSources r.dest
    return ⟨"git clone --branch " ++ r.tag ++ " " ++ r.url, "", "Cloning into '" ++ r.dest ++ "'..."⟩

end BuildRecipe
