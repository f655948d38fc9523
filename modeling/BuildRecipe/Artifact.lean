import BuildRecipe.Settings
import BuildRecipe.Json
/-!
# Library artifacts

The file names a build of library `name` leaves behind, by kind and operating system.
A static library is `lib<name>.a` everywhere, and also `<name>.lib` on Windows. A
shared library is `<name>.dll` or `lib<name>.dll` on Windows, `lib<name>.<...>.dylib` on
macOS, and `lib<name>.so` or `lib<name>.so.<...>` elsewhere. Main statement:
`lib<name>.a` is the static library of `name` on Linux.
-/

namespace BuildRecipe

/-- The kind of library a build produces. -/
inductive LibraryKind where
  | static | shared
  deriving DecidableEq, Repr, Inhabited

namespace LibraryKind

/-- The kind requested by the `shared` option. -/
def ofShared (shared : Bool) : LibraryKind := if shared then .shared else .static

/-- The lowercase name of the kind. -/
def name : LibraryKind → String
  | static => "static"
  | shared => "shared"

/-- The capitalized name of the kind, as reports write it. -/
def title : LibraryKind → String
  | static => "Static"
  | shared => "Shared"

end LibraryKind

/-- Whether `file` is the library `name` of the given kind on the operating system. -/
def isLibraryArtifact (file name : String) (kind : LibraryKind) (os : Os) : Bool :=
  let stem := "lib" ++ name
  match os, kind with
  | .windows, .static => file == name ++ ".lib" || file == stem ++ ".a"
  | .windows, .shared => file == name ++ ".dll" || file == stem ++ ".dll"
  | _, .static => file == stem ++ ".a"
  | .macos, .shared =>
    (stem ++ ".").toList.isPrefixOf file.toList && ".dylib".toList.isSuffixOf file.toList
  | _, .shared =>
    file == stem ++ ".so" || (stem ++ ".so.").toList.isPrefixOf file.toList

theorem isLibraryArtifact_static_linux (name : String) :
    isLibraryArtifact ("lib" ++ name ++ ".a") name .static .linux = true := by
  simp [isLibraryArtifact]

end BuildRecipe
