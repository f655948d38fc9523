import BuildRecipe.Path
import BuildRecipe.Text.Bytes
/-!
# File trees

A file tree maps absolute locations, written as the list of names from the root, to what
lies there: a directory, a file with its bytes and its permission bits, or an executable that
runs one of the built-in utilities. The root is always a directory. Every other location that holds an
entry has a directory as its parent.

A path text is resolved against a working directory one component at a time: the root
starts over, `.` stays, `..` goes up (the root stays at itself) and a name goes down. A
component can only be applied at an existing directory, so `a/../b` fails when `a` is
missing (not found) or is a file (not a directory), as the operating system does.

The operating system's faults are named by their kind; `IoFault.text` is the system's
wording and `IoFault.message` adds the error number the way the tool reports it.

Main statements: a location just set holds its node (`get?_set_self`), an erased one holds
nothing (`get?_erase_self`), and the root is a directory (`get?_root`).
-/

namespace BuildRecipe

/-- A program built into the machine. -/
inductive Utility where
  | shell
  | makeDirectory
  | touch
  | concatenate
  | succeed
  | fail
  | echo
  | list
  | remove
  | copy
  | move
  | changeMode
  | removeDirectory
  | head
  | tail
  | count
  | tee
  | cut
  | sort
  | unique
  | translate
  | sequence
  | stripDirectory
  | directoryPart
  | workingDirectory
  | printEnvironment
  | pause
  | search
  deriving DecidableEq, Repr, Inhabited

namespace Utility

/-- The command name a utility is installed under. -/
def name : Utility → String
  | shell => "sh"
  | makeDirectory => "mkdir"
  | touch => "touch"
  | concatenate => "cat"
  | succeed => "true"
  | fail => "false"
  | echo => "echo"
  | list => "ls"
  | remove => "rm"
  | copy => "cp"
  | move => "mv"
  | changeMode => "chmod"
  | removeDirectory => "rmdir"
  | head => "head"
  | tail => "tail"
  | count => "wc"
  | tee => "tee"
  | cut => "cut"
  | sort => "sort"
  | unique => "uniq"
  | translate => "tr"
  | sequence => "seq"
  | stripDirectory => "basename"
  | directoryPart => "dirname"
  | workingDirectory => "pwd"
  | printEnvironment => "printenv"
  | pause => "sleep"
  | search => "grep"

/-- Every utility, in a fixed order. -/
def all : List Utility :=
  [shell, makeDirectory, touch, concatenate, succeed, fail, echo, list, remove, copy, move, changeMode,
    removeDirectory, head, tail, count, tee, cut, sort, unique, translate, sequence, stripDirectory,
    directoryPart, workingDirectory, printEnvironment, pause, search]

/-- The utility installed under a command name. -/
def ofName? (n : String) : Option Utility := all.find? (·.name == n)

theorem ofName?_name (u : Utility) : ofName? u.name = some u := by
  cases u <;> rfl

end Utility

/-- What a location of a file tree holds. -/
inductive Node where
  | directory
  | file (content : Bytes) (mode : Nat)
  | executable (program : Utility)
  deriving DecidableEq, Repr, Inhabited

namespace Node

/-- The permission bits of a file written by a program that asks for `rw-rw-rw-` under the
usual mask `022`: `rw-r--r--`. -/
def defaultMode : Nat := 0o644

/-- Whether the node is a directory. -/
def isDirectory : Node → Bool
  | directory => true
  | _ => false

end Node

/-- Why an operation on files failed, by the kind the operating system reports. -/
inductive IoFault where
  | notFound
  | alreadyExists
  | notADirectory
  | isADirectory
  | notEmpty
  | notRegularFile
  | permissionDenied
  | invalidData
  deriving DecidableEq, Repr, Inhabited

namespace IoFault

/-- The system's wording of a fault. -/
def text : IoFault → String
  | notFound => "No such file or directory"
  | alreadyExists => "File exists"
  | notADirectory => "Not a directory"
  | isADirectory => "Is a directory"
  | notEmpty => "Directory not empty"
  | notRegularFile => "the source path is neither a regular file nor a symlink to a regular file"
  | permissionDenied => "Permission denied"
  | invalidData => "stream did not contain valid UTF-8"

/-- The error number of a fault, if the system gives it one. -/
def number? : IoFault → Option Nat
  | notFound => some 2
  | alreadyExists => some 17
  | notADirectory => some 20
  | isADirectory => some 21
  | notEmpty => some 39
  | notRegularFile => none
  | permissionDenied => some 13
  | invalidData => none

/-- The wording followed by the error number. -/
def message (f : IoFault) : String :=
  match f.number? with
  | some n => f.text ++ " (os error " ++ Nat.repr n ++ ")"
  | none => f.text

/-- Two faults the system numbers alike are the same fault. -/
theorem number?_inj {f g : IoFault} {n : Nat} (hf : f.number? = some n) (hg : g.number? = some n) :
    f = g := by
  cases f <;> cases g <;> simp only [number?, Option.some.injEq, reduceCtorEq] at hf hg <;> first | rfl | omega

/-- A fault's message starts with its wording. -/
theorem text_prefix_message (f : IoFault) : f.text.toList <+: f.message.toList := by
  unfold message
  split
  · simp only [String.toList_append, List.append_assoc]
    exact List.prefix_append _ _
  · exact List.prefix_refl _

example : notFound.message = "No such file or directory (os error 2)" := rfl

end IoFault

/-- A location: the names from the root down. -/
abbrev Location := List String

/-- Files and directories below the root, each at its location. -/
structure FileTree where
  entries : List (Location × Node) := []
  deriving Repr, Inhabited

namespace FileTree

/-- The node at a location; the root is a directory. -/
def get? (t : FileTree) (l : Location) : Option Node :=
  if l = [] then some .directory else (t.entries.find? (·.1 == l)).map (·.2)

/-- The tree with a node placed at a location, replacing what was there. -/
def set (t : FileTree) (l : Location) (n : Node) : FileTree :=
  if t.entries.any (·.1 == l) then
    ⟨t.entries.map fun e => if e.1 == l then (l, n) else e⟩
  else ⟨t.entries ++ [(l, n)]⟩

/-- The tree without the entry at a location. -/
def erase (t : FileTree) (l : Location) : FileTree := ⟨t.entries.filter (·.1 != l)⟩

/-- The tree without a location and everything below it. -/
def eraseBelow (t : FileTree) (l : Location) : FileTree :=
  ⟨t.entries.filter fun e => !l.isPrefixOf e.1⟩

/-- The names directly below a location, in the order they were made. -/
def children (t : FileTree) (l : Location) : List String :=
  t.entries.filterMap fun e =>
    match e.1.reverse with
    | n :: rest => if rest.reverse == l then some n else none
    | [] => none

/-- Whether a location holds a directory. -/
def isDirectoryAt (t : FileTree) (l : Location) : Bool :=
  match t.get? l with
  | some .directory => true
  | _ => false

theorem get?_root (t : FileTree) : t.get? [] = some .directory := by
  simp [get?]

theorem get?_set_self (t : FileTree) (l : Location) (n : Node) (h : l ≠ []) :
    (t.set l n).get? l = some n := by
  rw [get?, if_neg h]
  unfold set
  split
  · rename_i hany
    have hfind : (List.map (fun e => if (e.1 == l) = true then (l, n) else e) t.entries).find?
        (·.1 == l) = some (l, n) := by
      rw [List.find?_map]
      have hpred : ((fun x : Location × Node => x.1 == l) ∘
          fun e => if (e.1 == l) = true then (l, n) else e) = fun x => x.1 == l := by
        funext x
        by_cases hx : x.1 = l <;> simp [hx]
      rw [hpred]
      have hsome : t.entries.find? (·.1 == l) ≠ none := by
        rw [ne_eq, List.find?_eq_none]
        intro hall
        obtain ⟨e, he, hel⟩ := List.any_eq_true.mp hany
        exact hall e he hel
      obtain ⟨x, hx⟩ := Option.ne_none_iff_exists'.mp hsome
      rw [hx]
      have hp : x.1 = l := by simpa using List.find?_some hx
      simp [hp]
    rw [hfind]; rfl
  · rename_i hany
    have hnone : t.entries.find? (·.1 == l) = none := by
      rw [List.find?_eq_none]
      intro x hx hxl
      exact hany (List.any_eq_true.mpr ⟨x, hx, hxl⟩)
    rw [List.find?_append, hnone]
    simp

theorem get?_erase_self (t : FileTree) (l : Location) (h : l ≠ []) : (t.erase l).get? l = none := by
  unfold erase get?
  rw [if_neg h]
  rw [List.find?_eq_none.mpr]
  · rfl
  · intro x hx
    have := (List.mem_filter.mp hx).2
    simpa using this

/-- A path resolved against a working directory: the location and whether the text
asks for a directory there (it ends in a slash, `/.` or `/..`). -/
structure Resolved where
  location : Location
  wantsDirectory : Bool
  deriving DecidableEq, Repr, Inhabited

/-- Apply path components from a location, each one at an existing directory. -/
def descend (t : FileTree) : Location → List Component → Except IoFault Location
  | here, [] => .ok here
  | _, .root :: rest => descend t [] rest
  | here, c :: rest =>
    match t.get? here with
    | none => .error .notFound
    | some .directory =>
      match c with
      | .parent => descend t here.dropLast rest
      | .normal n => descend t (here ++ [n]) rest
      | _ => descend t here rest
    | some _ => .error .notADirectory

/-- Whether a path text names a directory by its form. -/
def asksForDirectory (p : String) : Bool :=
  let cs := p.toList
  cs.length > 1 && (cs.getLast? == some '/' || "/.".toList.isSuffixOf cs ||
    "/..".toList.isSuffixOf cs)

/-- A path text resolved against a working directory; the empty path names nothing. -/
def resolve (t : FileTree) (cwd : Location) (p : String) : Except IoFault Resolved :=
  if p.isEmpty then .error .notFound
  else
    match descend t cwd (Path.components p) with
    | .ok l => .ok ⟨l, asksForDirectory p⟩
    | .error e => .error e

end FileTree

end BuildRecipe
