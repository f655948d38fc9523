import BuildRecipe.FileTree.Basic
/-!
# Operations on a file tree by path

Each operation takes a working directory and a path text, resolves it as the operating
system does, and either answers, returns the changed tree, or fails with the fault the
system reports:

* `metadata` names what is there; a path that ends in a slash wants a directory, and
  `canonicalize` gives the location of what is there.
* `createDir` makes one directory below an existing one; `createDirAll` makes every missing
  directory of a path, trying the path first, then its parent, then the path again, and
  accepts a path that turns out to be a directory.
* `writeFile` creates or truncates a file, a new one with the given permission bits, and
  `readFile` reads its bytes; `writeText` and `readText` do the same with UTF-8 text, and
  reading text that is not UTF-8 fails as invalid data.
* `removeFile`, `removeDir` and `removeDirAll` unlink a file, an empty directory, or a
  directory with everything below it.
* `copyFile` copies a regular file's bytes and permission bits; copying a file onto itself truncates it first,
  so it ends empty.

Main statements: a directory made by `createDir` is a directory (`createDir_isDir`), and a
file written can be read back (`readFile_writeFile`).
-/

namespace BuildRecipe

namespace FileTree

/-- What a path names. -/
def metadata (t : FileTree) (cwd : Location) (p : String) : Except IoFault Node := do
  let r ← t.resolve cwd p
  match t.get? r.location with
  | none => throw .notFound
  | some n => if r.wantsDirectory && !n.isDirectory then throw .notADirectory else pure n

/-- Whether a path names a directory. -/
def isDir (t : FileTree) (cwd : Location) (p : String) : Bool :=
  match t.metadata cwd p with
  | .ok .directory => true
  | _ => false

/-- Whether a path names a regular file (a text or an executable). -/
def isFile (t : FileTree) (cwd : Location) (p : String) : Bool :=
  match t.metadata cwd p with
  | .ok .directory => false
  | .ok _ => true
  | .error _ => false

/-- Whether a path names anything. -/
def pathExists (t : FileTree) (cwd : Location) (p : String) : Bool :=
  match t.metadata cwd p with
  | .ok _ => true
  | .error _ => false

/-- The location a path names, when it names something: its canonical form, there being no
links to follow. -/
def canonicalize (t : FileTree) (cwd : Location) (p : String) : Except IoFault Location := do
  let _ ← t.metadata cwd p
  return (← t.resolve cwd p).location

/-- The location a path names, when it names a directory. -/
def directoryAt (t : FileTree) (cwd : Location) (p : String) : Except IoFault Location := do
  let r ← t.resolve cwd p
  match t.get? r.location with
  | none => throw .notFound
  | some .directory => pure r.location
  | some _ => throw .notADirectory

/-- The names in a directory, in the order they were made. -/
def readDir (t : FileTree) (cwd : Location) (p : String) : Except IoFault (List String) := do
  let l ← t.directoryAt cwd p
  pure (t.children l)

/-- The bytes of a file. An executable reads as empty. -/
def readFile (t : FileTree) (cwd : Location) (p : String) : Except IoFault Bytes := do
  match ← t.metadata cwd p with
  | .file c _ => pure c
  | .executable _ => pure ""
  | .directory => throw .isADirectory

/-- The UTF-8 text of a file. -/
def readText (t : FileTree) (cwd : Location) (p : String) : Except IoFault String := do
  match Bytes.toText? (← t.readFile cwd p) with
  | some s => pure s
  | none => throw .invalidData

/-- The tree with one new directory. -/
def createDir (t : FileTree) (cwd : Location) (p : String) : Except IoFault FileTree := do
  let r ← t.resolve cwd p
  match t.get? r.location with
  | some _ => throw .alreadyExists
  | none => pure (t.set r.location .directory)

/-- Make every missing directory of a path, at most `fuel` levels up. -/
def createDirAllFrom (cwd : Location) : Nat → FileTree → String → Except IoFault FileTree
  | fuel, t, p =>
    if Path.components p = [] then .ok t
    else
      match t.createDir cwd p with
      | .ok t' => .ok t'
      | .error .notFound =>
        match fuel, Path.parent? p with
        | fuel + 1, some q =>
          match createDirAllFrom cwd fuel t q with
          | .ok t1 =>
            match t1.createDir cwd p with
            | .ok t2 => .ok t2
            | .error e => if t1.isDir cwd p then .ok t1 else .error e
          | .error e => .error e
        | _, _ => .error .notFound
      | .error e => if t.isDir cwd p then .ok t else .error e

/-- Make a directory and every missing directory above it. -/
def createDirAll (t : FileTree) (cwd : Location) (p : String) : Except IoFault FileTree :=
  createDirAllFrom cwd (Path.components p).length t p

/-- The permission bits a file keeps when it is written again; a new file takes `mode`. -/
def modeAfterWrite (old : Option Node) (mode : Nat) : Nat :=
  match old with
  | some (.file _ m) => m
  | some (.executable _) => 0o755
  | _ => mode

/-- The tree with a file created with permission bits `mode`, or truncated, to the given
bytes. -/
def writeFileWith (t : FileTree) (cwd : Location) (p : String) (content : Bytes) (mode : Nat) :
    Except IoFault FileTree := do
  let r ← t.resolve cwd p
  match t.get? r.location with
  | some .directory => throw .isADirectory
  | old =>
    if r.wantsDirectory then throw .isADirectory
    else pure (t.set r.location (.file content (modeAfterWrite old mode)))

/-- The tree with a file created or truncated to the given bytes. -/
def writeFile (t : FileTree) (cwd : Location) (p : String) (content : Bytes) :
    Except IoFault FileTree :=
  t.writeFileWith cwd p content Node.defaultMode

/-- The tree with a file created or truncated to the UTF-8 bytes of a text. -/
def writeText (t : FileTree) (cwd : Location) (p : String) (text : String) :
    Except IoFault FileTree :=
  t.writeFile cwd p (Bytes.ofText text)

/-- The tree with bytes added at the end of a file, creating it with permission bits `mode`
when missing. -/
def appendFile (t : FileTree) (cwd : Location) (p : String) (more : Bytes) (mode : Nat) :
    Except IoFault FileTree := do
  let r ← t.resolve cwd p
  match t.get? r.location with
  | some .directory => throw .isADirectory
  | some (.file c m) => pure (t.set r.location (.file (c ++ more) m))
  | old =>
    if r.wantsDirectory then throw .isADirectory
    else pure (t.set r.location (.file more (modeAfterWrite old mode)))

/-- The tree without a file. -/
def removeFile (t : FileTree) (cwd : Location) (p : String) : Except IoFault FileTree := do
  let r ← t.resolve cwd p
  match t.get? r.location with
  | none => throw .notFound
  | some .directory => throw .isADirectory
  | some _ => if r.wantsDirectory then throw .notADirectory else pure (t.erase r.location)

/-- The tree without an empty directory. -/
def removeDir (t : FileTree) (cwd : Location) (p : String) : Except IoFault FileTree := do
  let l ← t.directoryAt cwd p
  if (t.children l).isEmpty then pure (t.erase l) else throw .notEmpty

/-- The tree without a directory and everything below it. -/
def removeDirAll (t : FileTree) (cwd : Location) (p : String) : Except IoFault FileTree := do
  let l ← t.directoryAt cwd p
  pure (t.eraseBelow l)

/-- The tree with a regular file's node copied to another path. -/
def copyFile (t : FileTree) (cwd : Location) (src dst : String) : Except IoFault FileTree := do
  let node ← t.metadata cwd src
  if node.isDirectory then throw .notRegularFile
  let from_ ← t.resolve cwd src
  let r ← t.resolve cwd dst
  match t.get? r.location with
  | some .directory => throw .isADirectory
  | _ =>
    if r.wantsDirectory then throw .isADirectory
    else if r.location = from_.location then
      pure (t.set r.location (.file "" (modeAfterWrite (some node) Node.defaultMode)))
    else pure (t.set r.location node)

theorem createDir_isDir (t t' : FileTree) (cwd : Location) (p : String)
    (r : Resolved) (hr : t.resolve cwd p = .ok r) (hne : r.location ≠ [])
    (h : t.createDir cwd p = .ok t') : t'.get? r.location = some .directory := by
  unfold createDir at h
  rw [hr] at h
  simp only [bind, Except.bind] at h
  cases hg : t.get? r.location with
  | some n => simp [hg, throw, throwThe, MonadExceptOf.throw] at h
  | none =>
    simp only [hg, pure, Except.pure, Except.ok.injEq] at h
    subst h
    exact get?_set_self t r.location .directory hne

theorem readFile_writeFile (t t' : FileTree) (cwd : Location) (p c : String) (l : Location)
    (hne : l ≠ []) (hr : t.resolve cwd p = .ok ⟨l, false⟩) (hr' : t'.resolve cwd p = .ok ⟨l, false⟩)
    (h : t.writeFile cwd p c = .ok t') : t'.readFile cwd p = .ok c := by
  unfold writeFile writeFileWith at h
  rw [hr] at h
  simp only [bind, Except.bind] at h
  have ht' : ∃ m, t' = t.set l (.file c m) := by
    cases hg : t.get? l with
    | none => simp [hg, pure, Except.pure] at h; exact ⟨_, h.symm⟩
    | some n =>
      cases n with
      | directory => simp [hg, throw, throwThe, MonadExceptOf.throw] at h
      | file d m => simp [hg, pure, Except.pure] at h; exact ⟨_, h.symm⟩
      | executable u => simp [hg, pure, Except.pure] at h; exact ⟨_, h.symm⟩
  obtain ⟨m, ht'⟩ := ht'
  have hget : t'.get? l = some (.file c m) := by rw [ht']; exact get?_set_self t l _ hne
  simp [readFile, metadata, hr', hget, bind, Except.bind, pure, Except.pure, Node.isDirectory]

end FileTree

end BuildRecipe
