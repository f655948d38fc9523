import BuildRecipe.Utility.Basic
/-!
# Names and the environment

The small utilities that work on names rather than on files' contents:

* `basename NAME [SUFFIX]` (or `-a`, `-s SUFFIX` for several names) writes the last name of a
  path, its trailing slashes ignored and the suffix taken off unless it is the whole name; a
  path of slashes only is `/`.
* `dirname NAME…` writes what is above the last name: `.` when there is nothing, `/` at the
  root.
* `pwd` writes the working directory; `printenv [NAME…]` the values of variables, or every
  `NAME=value` of the environment; `sleep` checks its intervals and ends at once.

Main statement: `basename` and `dirname` cut a path at the slash before its last name, the
name read as if it stood alone (`names_split`).
-/

namespace BuildRecipe.Utilities

/-- The last name of a path with a suffix taken off, as `basename` writes it. -/
def lastName (p : Bytes) (suffix : Bytes) : Bytes :=
  let cs := p.toList
  let trimmed := (cs.reverse.dropWhile (· == '/')).reverse
  if trimmed.isEmpty then (if cs.isEmpty then "" else "/")
  else
    let name := (trimmed.reverse.takeWhile (· != '/')).reverse
    let sfx := suffix.toList
    if !sfx.isEmpty && sfx.length < name.length && sfx.isSuffixOf name then
      String.ofList (name.take (name.length - sfx.length))
    else String.ofList name

/-- What is above a path's last name, as `dirname` writes it. -/
def parentName (p : Bytes) : Bytes :=
  let cs := p.toList
  let trimmed := (cs.reverse.dropWhile (· == '/')).reverse
  if trimmed.isEmpty then (if cs.isEmpty then "." else "/")
  else
    let above := (trimmed.reverse.dropWhile (· != '/')).reverse
    if above.isEmpty then "."
    else
      let above := (above.reverse.dropWhile (· == '/')).reverse
      if above.isEmpty then "/" else String.ofList above

/-- `basename`. -/
def stripDirectory (inv : Invocation) (files : FileTree) : Completion :=
  let t : OptionTable := {
    flags := ['a', 'z'], valued := ['s'],
    long := [longOf "multiple" "a" .none, longOf "suffix" "s" .required,
      longOf "zero" "z" .none] ++ commonLong }
  withOptions inv files t 1 fun r =>
  let ending := if r.has "z" then "\x00" else "\n"
  match r.value? "s", r.has "a", r.operands with
  | _, _, [] => ended files 1 "" (usage inv.program "missing operand")
  | some sfx, _, names => ended files 0 (String.join (names.map fun n => lastName n sfx ++ ending)) ""
  | none, true, names => ended files 0 (String.join (names.map fun n => lastName n "" ++ ending)) ""
  | none, false, [n] => ended files 0 (lastName n "" ++ ending) ""
  | none, false, [n, s] => ended files 0 (lastName n s ++ ending) ""
  | none, false, _ :: _ :: extra :: _ =>
    ended files 1 "" (usage inv.program ("extra operand " ++ quoted extra))

/-- `dirname`. -/
def directoryPart (inv : Invocation) (files : FileTree) : Completion :=
  let t : OptionTable := {
    flags := ['z'], valued := [],
    long := [longOf "zero" "z" .none] ++ commonLong }
  withOptions inv files t 1 fun r =>
  let ending := if r.has "z" then "\x00" else "\n"
  if r.operands.isEmpty then ended files 1 "" (usage inv.program "missing operand")
  else ended files 0 (String.join (r.operands.map fun n => parentName n ++ ending)) ""

/-- `pwd`: the working directory, from the root. -/
def workingDirectory (inv : Invocation) (files : FileTree) : Completion :=
  let t : OptionTable := {
    flags := ['L', 'P'], valued := [],
    long := [longOf "logical" "L" .none, longOf "physical" "P" .none] ++ commonLong }
  withOptions inv files t 1 fun r =>
  match r.operands with
  | [] => ended files 0 ("/" ++ "/".intercalate (inv.cwd.map Bytes.ofText) ++ "\n") ""
  | _ => ended files 0 ("/" ++ "/".intercalate (inv.cwd.map Bytes.ofText) ++ "\n")
      (inv.program ++ ": ignoring non-option arguments\n")

/-- `printenv`: the values of the variables named, or the whole environment; code 1 when one
is not set. -/
def printEnvironment (inv : Invocation) (files : FileTree) : Completion :=
  let t : OptionTable := {
    flags := ['0'], valued := [],
    long := [longOf "null" "0" .none] ++ commonLong }
  withOptions inv files t 2 fun r =>
  let ending := if r.has "0" then "\x00" else "\n"
  match r.operands with
  | [] => ended files 0 (String.join (inv.env.map fun (k, v) => k ++ "=" ++ v ++ ending)) ""
  | names =>
    let found := names.map fun n => (envGet? inv.env n).map (· ++ ending)
    let out := String.join (found.filterMap id)
    ended files (if found.all Option.isSome then 0 else 1) out ""

/-- An interval of `sleep`: a number, with a fraction if wanted, and a unit `s`, `m`, `h` or
`d`. -/
def isInterval (t : Bytes) : Bool :=
  let cs := t.toList
  let body := match cs.getLast? with
    | some c => if c == 's' || c == 'm' || c == 'h' || c == 'd' then cs.dropLast else cs
    | none => cs
  let whole := body.takeWhile Char.isDigit
  let rest := body.drop whole.length
  match rest with
  | [] => !whole.isEmpty
  | '.' :: frac => frac.all Char.isDigit && !(whole.isEmpty && frac.isEmpty)
  | _ => false

/-- `sleep`: the intervals are checked; no time passes on this machine. -/
def pause (inv : Invocation) (files : FileTree) : Completion :=
  withOptions inv files { flags := [], valued := [], long := commonLong } 1 fun r =>
  match r.operands with
  | [] => ended files 1 "" (usage inv.program "missing operand")
  | ts =>
    match ts.find? fun t => !isInterval t with
    | some bad => ended files 1 "" (usage inv.program ("invalid time interval " ++ quoted bad))
    | none => ended files 0 "" ""

theorem takeWhile_of_all {p : Char → Bool} {l : List Char} (h : ∀ c ∈ l, p c) : l.takeWhile p = l := by
  simpa using @List.takeWhile_append_of_pos _ p l [] h

/-- `basename` and `dirname` cut a path at the slash before its last name: the name is read as
if it stood alone, and what stands before the slash, less its own trailing slashes, is above
it. -/
theorem names_split {dir name : List Char} (hname : name ≠ []) (hslash : '/' ∉ name)
    (hdir : dir ≠ []) (hdirEnd : dir.getLast? ≠ some '/') (suffix : Bytes) :
    lastName (String.ofList (dir ++ '/' :: name)) suffix = lastName (String.ofList name) suffix ∧
      parentName (String.ofList (dir ++ '/' :: name)) = String.ofList dir := by
  -- no byte of the name is a slash, its last one included
  have hnot : ∀ c ∈ name.reverse, (c != '/') = true :=
    List.filter_eq_self.mp (List.filter_bne_eq_self_of_not_mem (mt List.mem_reverse.mp hslash))
  obtain ⟨a, rn, hrev⟩ : ∃ a rn, name.reverse = a :: rn := by
    cases h : name.reverse with
    | nil => exact absurd (List.reverse_eq_nil_iff.mp h) hname
    | cons a rn => exact ⟨a, rn, rfl⟩
  have ha : (a == '/') = false := by
    have := hnot a (by rw [hrev]; exact List.mem_cons_self)
    simpa using this
  have hpath : (dir ++ '/' :: name).reverse = a :: (rn ++ '/' :: dir.reverse) := by
    rw [List.reverse_append, List.reverse_cons, hrev]
    simp
  have htake : (a :: (rn ++ '/' :: dir.reverse)).takeWhile (· != '/') = a :: rn := by
    rw [← List.cons_append, ← hrev, List.takeWhile_append_of_pos hnot,
      List.takeWhile_cons_of_neg (by simp), List.append_nil]
  have hdrop : (a :: (rn ++ '/' :: dir.reverse)).dropWhile (· != '/') = '/' :: dir.reverse := by
    rw [← List.cons_append, ← hrev, List.dropWhile_append_of_pos hnot,
      List.dropWhile_cons_of_neg (by simp)]
  have hself : (a :: rn).takeWhile (· != '/') = a :: rn := takeWhile_of_all (hrev ▸ hnot)
  constructor
  · simp [lastName, hpath, hrev, ha, htake, hself]
  · -- the slash before the name is the last one, and the folder does not end in another
    obtain ⟨b, rd, hdrev⟩ : ∃ b rd, dir.reverse = b :: rd := by
      cases h : dir.reverse with
      | nil => exact absurd (List.reverse_eq_nil_iff.mp h) hdir
      | cons b rd => exact ⟨b, rd, rfl⟩
    have hb : (b == '/') = false := by
      have hlast : dir.getLast? = some b := by rw [← List.head?_reverse, hdrev]; rfl
      simpa [hlast] using hdirEnd
    have hdirBack : (b :: rd).reverse = dir := by rw [← hdrev, List.reverse_reverse]
    have htrim : (a :: (rn ++ '/' :: dir.reverse)).dropWhile (· == '/') =
        a :: (rn ++ '/' :: dir.reverse) :=
      List.dropWhile_cons_of_neg (by simp [ha])
    simp only [parentName, String.toList_ofList, hpath, htrim, List.reverse_reverse, hdrop]
    simp [hdrev, hb, hdirBack, hdir]

example : lastName "/a/b/c.txt" ".txt" = "c" ∧ parentName "/a/b//c.txt" = "/a/b" := by decide

example : parentName "a" = "." ∧ parentName "/a" = "/" ∧ lastName "//" "" = "/" := by decide

end BuildRecipe.Utilities
