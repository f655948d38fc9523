import BuildRecipe.Recipe.Basic
/-!
# Fetch requests

What fetching a release's sources asks for: the repository url, the release tag, the
history depth (zero for the full history), and the folder the clone lands in.

Main statement: the tag of a request is the release tag of the package's version
(`of_tag`).
-/

namespace BuildRecipe

/-- What fetching a release's sources asks for. -/
structure FetchRequest where
  url : String
  tag : String
  depth : Nat
  dest : String
  deriving DecidableEq, Repr, Inhabited

/-- The request for a package's release with a source section, into `dest`. -/
def FetchRequest.of (p : Package) (s : SourceSection) (dest : String) : FetchRequest :=
  ⟨p.url, releaseTag p.version, s.depth, dest⟩

/-- The request as a JSON object. -/
def FetchRequest.toJson (r : FetchRequest) : Json :=
  .obj [("url", .str r.url), ("tag", .str r.tag), ("depth", .int r.depth), ("dest", .str r.dest)]

theorem of_tag (p : Package) (s : SourceSection) (dest : String) :
    (FetchRequest.of p s dest).tag = "v" ++ p.version := rfl

end BuildRecipe
