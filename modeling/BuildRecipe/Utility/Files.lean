import BuildRecipe.FileTree.Walk
import BuildRecipe.Utility.Basic
import BuildRecipe.Utility.Mode
/-!
# File utilities

The utilities that make, copy, move and remove files, and `cat` and `echo` (`ls` is
`Utility.Listing`). They read their options first, anywhere among the operands
(`Utility.Options`); an option a tool does not know ends it with the reading's message and a
hint to ask for help, with code 1. Then they work through their operands in order, report
each failure on standard error as `tool: message` and go on, and end with code 1 when
anything failed. Where a tool goes through a directory, it takes the entries in byte order.

* `mkdir [-p] [-v] [-m mode] dir…` makes directories; `-p` makes each missing folder on the
  way, as the path is written, and accepts existing directories; `rmdir [-p] [-v]` removes
  empty ones.
* `touch [-c] file…` creates missing files empty, unless `-c`.
* `cat [-nbsEATv] [file…]` writes files, or standard input for none or `-`, numbering lines,
  squeezing blank ones and showing ends, tabs and other control bytes as asked.
* `rm [-r] [-d] [-f] [-i] [-I] [-v] path…` removes files, directories with `-r`, empty
  directories with `-d`, asking first under `-i`; `-f` ignores missing ones.
* `cp [-r] [-n] [-i] [-v] source… dest` and `mv [-n] [-i] [-v] source… dest` copy or move into
  `dest` or as `dest`.
* `chmod [-R] [-v] [-c] mode file…` sets permission bits (`Utility.Mode`).
* `echo [-n] [-e] [-E] text…` writes its arguments separated by blanks, with escapes under
  `-e`.

Main statements: a stamp of `touch -t` is taken exactly when its fields are in range
(`stampValid_fields`), and `mkdir` without operands fails (`makeDirectory_missing`).
-/

namespace BuildRecipe.Utilities

-- ============================================================================
-- mkdir, touch
-- ============================================================================

/-- The texts of the folders `mkdir -p` passes on its way to a path: the path as written up to
the end of each name before the last. -/
def pathPrefixes (p : Bytes) : List Bytes :=
  let segs := ((p.splitOn "/").reverse.dropWhile (·.isEmpty)).reverse
  ((List.range segs.length).drop 1).filterMap fun i =>
    if (segs.getD (i - 1) "").isEmpty then none else some ("/".intercalate (segs.take i))

/-- `mkdir -p` on one path: each missing folder on the way is made, and named on the returned
text when `verbose`; a name on the way that is not a folder stops it with the message. -/
def makeParents (cwd : Location) (tool : Bytes) (verbose : Bool) (t : FileTree) (d : Bytes) :
    FileTree × Bytes × Option Bytes :=
  let refuse (q : Bytes) (why : String) : Option Bytes :=
    some (tool ++ ": cannot create directory " ++ quoted q ++ ": " ++ why ++ "\n")
  let make (t : FileTree) (out : Bytes) (q : Bytes) : FileTree × Bytes × Option Bytes :=
    match t.createDir cwd (Bytes.toText q) with
    | .ok t' => (t', if verbose then out ++ tool ++ ": created directory " ++ quoted q ++ "\n" else out, none)
    | .error e => (t, out, refuse q e.text)
  let (t, out, fault) := (pathPrefixes d).foldl (fun (t, out, fault) q =>
    match fault with
    | some _ => (t, out, fault)
    | none =>
      match nodeOf t cwd q with
      | .ok .directory => (t, out, none)
      | .ok _ => (t, out, refuse q IoFault.notADirectory.text)
      | .error .notFound => make t out q
      | .error e => (t, out, refuse q e.text)) (t, "", none)
  match fault with
  | some _ => (t, out, fault)
  | none =>
    match nodeOf t cwd d with
    | .ok .directory => (t, out, none)
    | .ok _ => (t, out, refuse d IoFault.alreadyExists.text)
    | .error .notFound => make t out d
    | .error e => (t, out, refuse d e.text)

/-- `mkdir`. -/
def makeDirectory (inv : Invocation) (files : FileTree) : Completion :=
  withOptions inv files mkdirTable 1 fun r =>
  let dirs := r.operands
  let parents := r.has "p"
  let verbose := r.has "v"
  let badMode := match r.value? "m" with
    | some m => if (applyMode inv.umask true m 0o777).isNone then some m else none
    | none => none
  if dirs.isEmpty then ended files 1 "" (missingOperand inv.program "operand")
  else match badMode with
  | some m => ended files 1 "" (inv.program ++ ": invalid mode " ++ quoted m ++ "\n")
  | none =>
    let (t, out, err, failed) := dirs.foldl (fun (t, out, err, failed) d =>
      if parents then
        let (t, said, fault) := makeParents inv.cwd inv.program verbose t d
        match fault with
        | some e => (t, out ++ said, err ++ e, true)
        | none => (t, out ++ said, err, failed)
      else
      match t.createDir inv.cwd (Bytes.toText d) with
      | .ok t' =>
        (t', if verbose then out ++ inv.program ++ ": created directory " ++ quoted d ++ "\n" else out,
          err, failed)
      | .error e =>
        (t, out, err ++ inv.program ++ ": cannot create directory " ++ quoted d ++ ": " ++ e.text ++ "\n",
          true)) (files, "", "", false)
    ended t (if failed then 1 else 0) out err

/-- `rmdir [-p] [-v] dir…`: removes empty directories, and with `-p` the directories above each
as it is written, the last name first. -/
def removeDirectory (inv : Invocation) (files : FileTree) : Completion :=
  let t : OptionTable := {
    flags := ['p', 'v'], valued := [],
    long := [longOf "parents" "p" .none, longOf "verbose" "v" .none,
      longOf "ignore-fail-on-non-empty" "ignore-fail-on-non-empty" .none] ++ commonLong }
  withOptions inv files t 1 fun r =>
  let quiet := r.has "ignore-fail-on-non-empty"
  if r.operands.isEmpty then ended files 1 "" (missingOperand inv.program "operand")
  else
    let removeOne (acc : FileTree × Bytes × Bytes × Bool) (d : Bytes) (parent : Bool) :
        (FileTree × Bytes × Bytes × Bool) × Bool :=
      let (t, out, err, failed) := acc
      let out := if r.has "v" then out ++ inv.program ++ ": removing directory, " ++ quoted d ++ "\n" else out
      let fault (why : String) : (FileTree × Bytes × Bytes × Bool) × Bool :=
        if quiet && why == IoFault.notEmpty.text then ((t, out, err, failed), false)
        else
          let what := if parent then "failed to remove directory " else "failed to remove "
          ((t, out, err ++ inv.program ++ ": " ++ what ++ quoted d ++ ": " ++ why ++ "\n", true), false)
      match nodeOf t inv.cwd d with
      | .error e => fault e.text
      | .ok .directory =>
        match t.removeDir inv.cwd (Bytes.toText d) with
        | .ok t' => ((t', out, err, failed), true)
        | .error e => fault e.text
      | .ok _ => fault IoFault.notADirectory.text
    let (t, out, err, failed) := r.operands.foldl (fun acc d =>
      let (acc, ok) := removeOne acc d false
      if ok && r.has "p" then
        -- the directories above, as written, while they go
        let aboves := (pathPrefixes d).reverse
        (aboves.foldl (fun (acc, going) q =>
          if going then removeOne acc q true else (acc, false)) (acc, true)).1
      else acc) (files, "", "", false)
    ended t (if failed then 1 else 0) out err

/-- The value of a run of decimal digits. -/
def digitValue (cs : List Char) : Nat := cs.foldl (fun n c => 10 * n + (c.toNat - 48)) 0

/-- Whether a stamp of `touch -t` reads as `[[CC]YY]MMDDhhmm[.ss]`, each part in its range. -/
def stampValid (t : Bytes) : Bool :=
  let cs := t.toList
  let main := cs.takeWhile (· != '.')
  let secs : Option (List Char) := match cs.drop main.length with
    | [] => some []
    | '.' :: ss => if ss.length == 2 && ss.all Char.isDigit then some ss else none
    | _ => none
  let tail := main.drop (main.length - min main.length 8)
  let month := digitValue (tail.take 2)
  let day := digitValue ((tail.drop 2).take 2)
  let hour := digitValue ((tail.drop 4).take 2)
  let minute := digitValue ((tail.drop 6).take 2)
  match secs with
  | none => false
  | some ss =>
    main.all Char.isDigit && [8, 10, 12].contains main.length && 1 ≤ month && month ≤ 12 &&
      1 ≤ day && day ≤ 31 && hour ≤ 23 && minute ≤ 59 && (ss.isEmpty || digitValue ss ≤ 60)

/-- The words a date of `touch -d` may hold: the days and months with their short forms, the
units of a relative date, and the words that name a day or a part of one. -/
def dateWords : List String :=
  ["now", "today", "yesterday", "tomorrow", "ago", "next", "last", "this", "noon", "midnight",
    "am", "pm", "a.m.", "p.m.", "utc", "gmt", "ut", "dst", "first", "third", "fourth", "fifth",
    "sixth", "seventh", "eighth", "ninth", "tenth", "eleventh", "twelfth", "and"] ++
  ["january", "february", "march", "april", "may", "june", "july", "august", "september",
    "october", "november", "december", "jan", "feb", "mar", "apr", "jun", "jul", "aug", "sep",
    "sept", "oct", "nov", "dec"] ++
  ["sunday", "monday", "tuesday", "wednesday", "thursday", "friday", "saturday", "sun", "mon",
    "tue", "tues", "wed", "wednes", "thu", "thur", "thurs", "fri", "sat"] ++
  (["year", "month", "fortnight", "week", "day", "hour", "minute", "min", "second", "sec"].flatMap
    fun u => [u, u ++ "s"])

/-- Whether a text is a number of at most `most` digits, and at least `least`. -/
def digitsBetween (least most : Nat) (cs : List Char) : Bool :=
  least ≤ cs.length && cs.length ≤ most && cs.all Char.isDigit

/-- Whether a text reads as a time of day: hours and minutes, seconds if wanted, in range, then
an offset or a zone letter if wanted. -/
def clockValid (cs : List Char) : Bool :=
  let body := cs.takeWhile fun c => c.isDigit || c == ':' || c == '.'
  let zone := cs.drop body.length
  let zoneOk := zone.isEmpty || zone == ['z'] ||
    (match zone with
      | c :: rest => (c == '+' || c == '-') && rest.all (fun d => d.isDigit || d == ':')
      | [] => true)
  match (String.ofList body).splitOn ":" with
  | [h, m] => digitsBetween 1 2 h.toList && digitsBetween 2 2 m.toList && h.toNat! ≤ 23 &&
      m.toNat! ≤ 59 && zoneOk
  | [h, m, sec] =>
    let whole := (sec.splitOn ".").headD ""
    digitsBetween 1 2 h.toList && digitsBetween 2 2 m.toList && digitsBetween 2 2 whole.toList &&
      h.toNat! ≤ 23 && m.toNat! ≤ 59 && whole.toNat! ≤ 60 && zoneOk
  | _ => false

/-- Whether a text reads as a calendar date: `YYYY-MM-DD`, or with slashes `M/D`, `M/D/Y` or
`YYYY/M/D`, the month and day in range. -/
def calendarValid (cs : List Char) : Bool :=
  let inRange (m d : String) : Bool :=
    1 ≤ m.toNat! && m.toNat! ≤ 12 && 1 ≤ d.toNat! && d.toNat! ≤ 31
  match (String.ofList cs).splitOn "-" with
  | [y, m, d] => digitsBetween 1 4 y.toList && digitsBetween 1 2 m.toList &&
      digitsBetween 1 2 d.toList && inRange m d
  | _ =>
    match (String.ofList cs).splitOn "/" with
    | [m, d] => digitsBetween 1 2 m.toList && digitsBetween 1 2 d.toList && inRange m d
    | [a, b, c] =>
      if a.length == 4 then digitsBetween 1 2 b.toList && digitsBetween 1 2 c.toList && inRange b c
      else digitsBetween 1 2 a.toList && digitsBetween 1 2 b.toList && digitsBetween 1 4 c.toList &&
        inRange a b
    | _ => false

/-- Whether a date of `touch -d` reads as one: each of its words a known word, a zone letter,
a count with a sign or before a unit, a short number, a time of day, a calendar date with its
time after `T`, or `@` and seconds. -/
def dateTextValid (t : Bytes) : Bool :=
  let words := ((String.ofList (t.toList.map fun c => if c == ',' then ' ' else c.toLower)).splitOn " ").filter
    (!·.isEmpty)
  let units := ["year", "month", "fortnight", "week", "day", "hour", "minute", "min", "second", "sec"]
  let isUnit (w : String) : Bool := units.any fun u => w == u || w == u ++ "s"
  let one (w : String) (next : Option String) : Bool :=
    let cs := w.toList
    dateWords.contains w || (cs.length == 1 && cs.all Char.isLower && w != "j") ||
      (match cs with
        | '@' :: rest =>
          let rest := match rest with
            | '-' :: more | '+' :: more => more
            | _ => rest
          !rest.isEmpty && rest.all (fun c => c.isDigit || c == '.')
        | c :: rest => (c == '+' || c == '-') && digitsBetween 1 9 rest
        | [] => false) ||
      (digitsBetween 1 9 cs && (next.map isUnit).getD false) || digitsBetween 1 4 cs ||
      clockValid cs || calendarValid cs ||
      (match w.splitOn "t" with
        | [d, c] => calendarValid d.toList && clockValid c.toList
        | _ => false)
  (words.zipIdx.all fun (w, i) => one w words[i + 1]?)

/-- `touch`: creates each missing file empty, unless `-c`. Its times, from `-d`, `-t` or `-r`,
are not kept, but they are checked: one source at most, a date or stamp that reads, a
reference file that exists. -/
def touch (inv : Invocation) (files : FileTree) : Completion :=
  withOptions inv files touchTable 1 fun r =>
  let paths := r.operands
  let refuse (m : Bytes) : Completion := ended files 1 "" (inv.program ++ ": " ++ m ++ "\n")
  let badStamp := (r.options.filterMap fun (k, v) => if k == "t" then v else none).find? (!stampValid ·)
  let sources := (["d", "t", "r"].filter r.has).length
  match badStamp with
  | some t => refuse ("invalid date format " ++ quoted t)
  | none =>
  if sources > 1 then
    ended files 1 "" (usage inv.program "cannot specify times from more than one source")
  else
  match (r.value? "r").filter (fun ref => (nodeOf files inv.cwd ref).toOption.isNone),
      (r.value? "d").filter (!dateTextValid ·) with
  | some ref, _ =>
    let why := match nodeOf files inv.cwd ref with
      | .error e => e.text
      | .ok _ => ""
    refuse ("failed to get attributes of " ++ quoted ref ++ ": " ++ why)
  | none, some d => refuse ("invalid date format " ++ quoted d)
  | none, none =>
  if paths.isEmpty then ended files 1 "" (missingOperand inv.program "file operand")
  else
    let (t, err, failed) := paths.foldl (fun (t, err, failed) p =>
      if t.pathExists inv.cwd (Bytes.toText p) || r.has "c" then (t, err, failed)
      else match t.writeFileWith inv.cwd (Bytes.toText p) "" (newFileMode inv.umask) with
        | .ok t' => (t', err, failed)
        | .error e => (t, err ++ inv.program ++ ": cannot touch " ++ quoted p ++ ": " ++ e.text ++ "\n", true))
      (files, "", false)
    ended t (if failed then 1 else 0) "" err

/-- Two decimal digits of a number below a hundred, as a field of a stamp is written. -/
def twoDigits (n : Nat) : List Char := [Nat.digitChar (n / 10), Nat.digitChar (n % 10)]

theorem digitValue_twoDigits {n : Nat} (hn : n < 100) : digitValue (twoDigits n) = n := by
  have h1 := Nat.toNat_digitChar_sub_48_of_lt_ten (show n / 10 < 10 by omega)
  have h2 := Nat.toNat_digitChar_sub_48_of_lt_ten (show n % 10 < 10 by omega)
  simp only [digitValue, twoDigits, List.foldl_cons, List.foldl_nil, h1, h2]
  omega

theorem isDigit_of_mem_twoDigits {n : Nat} {c : Char} (hn : n < 100) (h : c ∈ twoDigits n) :
    c.isDigit := by
  simp only [twoDigits, List.mem_cons, List.not_mem_nil, or_false] at h
  rcases h with rfl | rfl <;> simp only [Nat.isDigit_digitChar, decide_eq_true_eq] <;> omega

/-- A stamp of `touch -t` made of its century and year, its year or neither, then two digits
each for the month, the day, the hour and the minute, is taken exactly when each of these four is
in its range. -/
theorem stampValid_fields {year : List Char} (hyear : ∀ c ∈ year, c.isDigit)
    (hlen : year.length = 0 ∨ year.length = 2 ∨ year.length = 4)
    {month day hour minute : Nat} (hm : month < 100) (hd : day < 100) (hh : hour < 100)
    (hmi : minute < 100) :
    stampValid (String.ofList
        (year ++ twoDigits month ++ twoDigits day ++ twoDigits hour ++ twoDigits minute)) = true ↔
      1 ≤ month ∧ month ≤ 12 ∧ 1 ≤ day ∧ day ≤ 31 ∧ hour ≤ 23 ∧ minute ≤ 59 := by
  simp only [List.append_assoc]
  generalize hf : twoDigits month ++ (twoDigits day ++ (twoDigits hour ++ twoDigits minute)) =
    fields
  have hdigits : ∀ c ∈ year ++ fields, c.isDigit := by
    intro c hc
    subst hf
    simp only [List.mem_append] at hc
    rcases hc with hc | hc | hc | hc | hc
    · exact hyear c hc
    · exact isDigit_of_mem_twoDigits hm hc
    · exact isDigit_of_mem_twoDigits hd hc
    · exact isDigit_of_mem_twoDigits hh hc
    · exact isDigit_of_mem_twoDigits hmi hc
  have hmain : (year ++ fields).takeWhile (· != '.') = year ++ fields := by
    rw [← List.append_nil (year ++ fields), List.takeWhile_append_of_pos, List.takeWhile_nil]
    intro c hc
    have hdot : c ≠ '.' := by
      rintro rfl
      exact absurd (hdigits _ hc) (by decide)
    simpa using hdot
  have hlenf : fields.length = 8 := by
    subst hf
    simp [twoDigits]
  have htail : (year ++ fields).drop ((year ++ fields).length - min (year ++ fields).length 8) =
      fields := by
    rw [List.length_append, hlenf, show year.length + 8 - min (year.length + 8) 8 = year.length by omega,
      List.drop_left' rfl]
  unfold stampValid
  simp only [String.toList_ofList, hmain, htail, List.drop_length]
  subst hf
  have vm := digitValue_twoDigits hm
  have vd := digitValue_twoDigits hd
  have vh := digitValue_twoDigits hh
  have vmi := digitValue_twoDigits hmi
  simp only [twoDigits] at vm vd vh vmi
  have hlen' : year = [] ∨ year.length = 2 ∨ year.length = 4 := by
    rwa [← List.length_eq_zero_iff]
  have hsmall : month / 10 < 10 ∧ month % 10 < 10 ∧ day / 10 < 10 ∧ day % 10 < 10 ∧
      hour / 10 < 10 ∧ hour % 10 < 10 ∧ minute / 10 < 10 ∧ minute % 10 < 10 := by
    omega
  simp [twoDigits, vm, vd, vh, vmi, hlen', hsmall, and_assoc]
  exact fun _ _ _ _ _ _ => hyear

example : stampValid "202001010000" = true ∧ stampValid "0101000" = false ∧
    stampValid "13010000" = false := by decide

-- ============================================================================
-- cat
-- ============================================================================

/-- What `cat` is asked to show. -/
structure CatStyle where
  number : Bool
  numberNonblank : Bool
  squeeze : Bool
  ends : Bool
  tabs : Bool
  nonprinting : Bool

/-- Where `cat` is in its output, across its files: the next line number, whether it is at the
start of a line, and how many empty lines it has just passed. -/
structure CatState where
  line : Nat := 1
  atStart : Bool := true
  blanks : Nat := 0

/-- A line number as `cat -n` writes it: right-aligned in six columns, then a tab. -/
def lineNumber (n : Nat) : List Char :=
  let ds := (Nat.repr n).toList
  List.replicate (6 - ds.length) ' ' ++ ds ++ ['\t']

/-- A byte as `cat -v` shows it: `^X` for control bytes, `^?` for DEL, `M-` before bytes with
the high bit. -/
def showByte (c : Char) : List Char :=
  let n := c.toNat
  let low (m : Nat) : List Char :=
    if m < 32 then ['^', Char.ofNat (m + 64)]
    else if m == 127 then ['^', '?']
    else [Char.ofNat m]
  if n ≥ 128 then 'M' :: '-' :: low (n - 128) else low n

/-- One byte through `cat`'s display: the bytes it writes and the state after. -/
def catByte (st : CatStyle) (s : CatState) (c : Char) : List Char × CatState :=
  if c == '\n' then
    if s.atStart then
      if st.squeeze && s.blanks ≥ 1 then ([], s)
      else
        let pre := if st.number && !st.numberNonblank then lineNumber s.line else []
        let line := if st.number && !st.numberNonblank then s.line + 1 else s.line
        (pre ++ (if st.ends then ['$', '\n'] else ['\n']), { s with line, blanks := s.blanks + 1 })
    else ((if st.ends then ['$', '\n'] else ['\n']), { s with atStart := true, blanks := 0 })
  else
    let pre := if s.atStart && (st.number || st.numberNonblank) then lineNumber s.line else []
    let line := if s.atStart && (st.number || st.numberNonblank) then s.line + 1 else s.line
    let body := if c == '\t' then (if st.tabs then ['^', 'I'] else ['\t'])
      else if st.nonprinting then showByte c else [c]
    (pre ++ body, { s with line, atStart := false, blanks := 0 })

/-- Bytes through `cat`'s display. -/
def catBytes (st : CatStyle) (s : CatState) (b : Bytes) : Bytes × CatState :=
  let (out, s) := b.toList.foldl (fun (acc, s) c =>
    let (o, s) := catByte st s c
    (o.reverse ++ acc, s)) ([], s)
  (String.ofList out.reverse, s)

/-- `cat`: each operand in turn, standard input once for `-` or no operand. -/
def concatenate (inv : Invocation) (files : FileTree) : Completion :=
  withOptions inv files catTable 1 fun r =>
  let v := r.hasAny ['v', 'A', 'e', 't']
  let st : CatStyle := {
    number := r.hasAny ['n', 'b']
    numberNonblank := r.has "b"
    squeeze := r.has "s"
    ends := r.hasAny ['E', 'A', 'e']
    tabs := r.hasAny ['T', 'A', 't']
    nonprinting := v }
  let plain := !(st.number || st.squeeze || st.ends || st.tabs || st.nonprinting)
  let paths := if r.operands.isEmpty then ["-"] else r.operands
  let (writes, _, _, failed) := paths.foldl (fun (ws, stdin, cs, failed) p =>
    let display (b : Bytes) : Bytes × CatState := if plain then (b, cs) else catBytes st cs b
    if p == "-" then
      let (o, cs) := display stdin
      (Channel.push ws .out o, "", cs, failed)
    else
      match files.readFile inv.cwd (Bytes.toText p) with
      | .ok c =>
        let (o, cs) := display c
        (Channel.push ws .out o, stdin, cs, failed)
      | .error e =>
        (Channel.push ws .err (inv.program ++ ": " ++ p ++ ": " ++ e.text ++ "\n"), stdin, cs, true))
    (([] : List (Channel × Bytes)), inv.stdin, ({} : CatState), false)
  { exit := .code (if failed then 1 else 0), writes, files }

-- ============================================================================
-- rm, cp, mv
-- ============================================================================

/-- What `rm` carries from one path to the next: the tree, the answers left to read, what it
has written on each stream, and whether anything failed. -/
structure Removal where
  files : FileTree
  answers : List Bytes
  out : Bytes := ""
  err : Bytes := ""
  failed : Bool := false

namespace Removal

/-- Ask a question on standard error and read the answer; no answer is no. -/
def ask (rm : Removal) (question : Bytes) : Bool × Removal :=
  let rm := { rm with err := rm.err ++ question }
  match rm.answers with
  | [] => (false, rm)
  | a :: rest => (affirmative a, { rm with answers := rest })

/-- Ask when `interactive`, else go ahead. -/
def askIf (rm : Removal) (interactive : Bool) (question : Bytes) : Bool × Removal :=
  if interactive then rm.ask question else (true, rm)

/-- Report that a path could not be removed. -/
def refuse (rm : Removal) (tool p : Bytes) (why : String) : Removal :=
  { rm with err := rm.err ++ tool ++ ": cannot remove " ++ quoted p ++ ": " ++ why ++ "\n",
            failed := true }

/-- Note a removal on standard output when `verbose`. -/
def said (rm : Removal) (verbose : Bool) (what : Bytes) : Removal :=
  if verbose then { rm with out := rm.out ++ "removed " ++ what ++ "\n" } else rm

end Removal

/-- How `rm` is asked to work. -/
structure RemoveStyle where
  tool : Bytes
  cwd : Location
  recursive : Bool
  emptyDirs : Bool
  interactive : Bool
  verbose : Bool

/-- Remove a file, or a directory with what is below it when `recursive`, asking first about
each when `interactive`. A directory's entries go in byte order, each before the directory. -/
def removePath (st : RemoveStyle) : Nat → Removal → Bytes → Removal
  | 0, rm, _ => rm
  | fuel + 1, rm, p =>
    match nodeOf rm.files st.cwd p with
    | .error e => rm.refuse st.tool p e.text
    | .ok .directory =>
      let kids := match rm.files.directoryAt st.cwd (Bytes.toText p) with
        | .ok l => ((rm.files.children l).map Bytes.ofText).mergeSort fun a b => decide (a ≤ b)
        | .error _ => []
      let rmdir (rm : Removal) : Removal :=
        let (go, rm) := rm.askIf st.interactive (st.tool ++ ": remove directory " ++ quoted p ++ "? ")
        if !go then rm
        else match rm.files.removeDir st.cwd (Bytes.toText p) with
          | .ok t => ({ rm with files := t }).said st.verbose ("directory " ++ quoted p)
          | .error e => rm.refuse st.tool p e.text
      if st.recursive then
        if kids.isEmpty then rmdir rm
        else
          let (go, rm) := rm.askIf st.interactive (st.tool ++ ": descend into directory " ++ quoted p ++ "? ")
          if !go then rm
          else rmdir (kids.foldl (fun rm k => removePath st fuel rm (below p k)) rm)
      else if st.emptyDirs then rmdir rm
      else rm.refuse st.tool p IoFault.isADirectory.text
    | .ok n =>
      let kind := match n with
        | .file c _ => if c.isEmpty then "regular empty file" else "regular file"
        | _ => "regular file"
      let (go, rm) := rm.askIf st.interactive (st.tool ++ ": remove " ++ kind ++ " " ++ quoted p ++ "? ")
      if !go then rm
      else match rm.files.removeFile st.cwd (Bytes.toText p) with
        | .ok t => ({ rm with files := t }).said st.verbose (quoted p)
        | .error e => rm.refuse st.tool p e.text

/-- When `rm` asks: never, about each path, or once before it starts. -/
inductive AskWhen where
  | never
  | always
  | once
  deriving DecidableEq, Repr, Inhabited

/-- `rm`. The last of `-f`, `-i` and `-I` decides when it asks; `-f` also passes over missing
paths. -/
def remove (inv : Invocation) (files : FileTree) : Completion :=
  withOptions inv files rmTable 1 fun r =>
  let paths := r.operands
  let recursive := r.hasAny ['r', 'R']
  let asking := r.options.foldl (fun a (k, v) =>
    match k with
    | "f" => AskWhen.never
    | "i" => AskWhen.always
    | "I" => AskWhen.once
    | "interactive" =>
      match v with
      | some "never" | some "no" | some "none" => AskWhen.never
      | some "once" => AskWhen.once
      | _ => AskWhen.always
    | _ => a) AskWhen.never
  let force := r.options.foldl (fun f (k, _) =>
    if k == "f" then true else if k == "i" || k == "I" || k == "interactive" then false else f) false
  let st : RemoveStyle := {
    tool := inv.program, cwd := inv.cwd, recursive, emptyDirs := r.has "d",
    interactive := asking == .always, verbose := r.has "v" }
  if paths.isEmpty then
    if force then ended files 0 "" "" else ended files 1 "" (missingOperand inv.program "operand")
  else
    let start : Removal := { files, answers := answerLines inv.stdin }
    let n := paths.length
    let (go, start) :=
      if asking == .once && (recursive || n > 3) then
        start.ask (inv.program ++ ": remove " ++ Nat.repr n ++ " argument" ++ (if n == 1 then "" else "s") ++
          (if recursive then " recursively" else "") ++ "? ")
      else (true, start)
    if !go then ended files 0 "" start.err
    else
    let rm := paths.foldl (fun rm p =>
      let last := baseName p
      if last == "." || last == ".." then
        { rm with err := rm.err ++ inv.program ++ ": refusing to remove '.' or '..' directory: skipping " ++
            quoted p ++ "\n", failed := true }
      else
      match nodeOf rm.files inv.cwd p with
      | .error .notFound => if force then rm else rm.refuse inv.program p IoFault.notFound.text
      | _ => removePath st (files.entries.length + 1) rm p) start
    ended rm.files (if rm.failed then 1 else 0) rm.out rm.err

/-- What `cp` carries from one copy to the next: the tree, the answers left to read, what it
has written on each stream, and whether anything failed. -/
structure Copying where
  files : FileTree
  answers : List Bytes
  out : Bytes := ""
  err : Bytes := ""
  failed : Bool := false

/-- How `cp` is asked to work. -/
structure CopyStyle where
  tool : Bytes
  cwd : Location
  recursive : Bool
  verbose : Bool
  noClobber : Bool
  interactive : Bool

namespace Copying

/-- Report a failure. -/
def fault (c : Copying) (tool : Bytes) (m : Bytes) : Copying :=
  { c with err := c.err ++ tool ++ ": " ++ m ++ "\n", failed := true }

/-- Note a copy on standard output when `verbose`. -/
def said (c : Copying) (verbose : Bool) (s t : Bytes) : Copying :=
  if verbose then { c with out := c.out ++ quoted s ++ " -> " ++ quoted t ++ "\n" } else c

end Copying

/-- Copy what a path names to a target path: a file's bytes, or with `recursive` a directory and
everything below it, its entries in byte order. An existing file is kept with `-n`, and asked
about with `-i`. -/
def copyPath (st : CopyStyle) : Nat → Copying → Bytes → Bytes → Copying
  | 0, c, _, _ => c
  | fuel + 1, c, s, target =>
    match nodeOf c.files st.cwd s with
    | .error e => c.fault st.tool ("cannot stat " ++ quoted s ++ ": " ++ e.text)
    | .ok .directory =>
      if !st.recursive then c.fault st.tool ("-r not specified; omitting directory " ++ quoted s)
      else
        let made : Except Bytes Copying :=
          match nodeOf c.files st.cwd target with
          | .ok .directory => .ok c
          | .ok _ => .error ("cannot overwrite non-directory " ++ quoted target ++ " with directory " ++
              quoted s)
          | .error _ =>
            match c.files.createDir st.cwd (Bytes.toText target) with
            | .ok t => .ok (({ c with files := t }).said st.verbose s target)
            | .error e => .error ("cannot create directory " ++ quoted target ++ ": " ++ e.text)
        match made with
        | .error m => c.fault st.tool m
        | .ok c =>
          let kids := match c.files.directoryAt st.cwd (Bytes.toText s) with
            | .ok l => ((c.files.children l).map Bytes.ofText).mergeSort fun a b => decide (a ≤ b)
            | .error _ => []
          kids.foldl (fun c k => copyPath st fuel c (below s k) (below target k)) c
    | .ok _ =>
      match c.files.resolve st.cwd (Bytes.toText s), c.files.resolve st.cwd (Bytes.toText target) with
      | .ok a, .ok b =>
        if a.location == b.location then
          c.fault st.tool (quoted s ++ " and " ++ quoted target ++ " are the same file")
        else
          let there := c.files.get? b.location
          match there with
          | some .directory =>
            c.fault st.tool ("cannot overwrite directory " ++ quoted target ++ " with non-directory")
          | some _ =>
            if st.noClobber then c
            else
              let (go, c) :=
                if st.interactive then
                  let c := { c with err := c.err ++ st.tool ++ ": overwrite " ++ quoted target ++ "? " }
                  match c.answers with
                  | [] => (false, c)
                  | ans :: rest => (affirmative ans, { c with answers := rest })
                else (true, c)
              if !go then { c with failed := true }
              else match c.files.copyFile st.cwd (Bytes.toText s) (Bytes.toText target) with
                | .ok t => ({ c with files := t }).said st.verbose s target
                | .error e => c.fault st.tool ("cannot create regular file " ++ quoted target ++ ": " ++ e.text)
          | none =>
            match c.files.copyFile st.cwd (Bytes.toText s) (Bytes.toText target) with
            | .ok t => ({ c with files := t }).said st.verbose s target
            | .error e => c.fault st.tool ("cannot create regular file " ++ quoted target ++ ": " ++ e.text)
      | _, _ => c.fault st.tool ("cannot create regular file " ++ quoted target ++ ": " ++
          IoFault.notFound.text)

/-- `cp`. The last of `-n`, `-i` and `-f` decides what happens to a file that is there;
`-n` also brings a warning that its meaning may change. -/
def copy (inv : Invocation) (files : FileTree) : Completion :=
  withOptions inv files cpTable 1 fun r =>
  let recursive := r.hasAny ['r', 'R', 'a']
  let clobber := r.options.foldl (fun m (k, _) =>
    if k == "n" || k == "i" || k == "f" then k else m) "f"
  let warning := if r.has "n" then
      inv.program ++ ": warning: behavior of -n is non-portable and may change in future; " ++
        "use --update=none instead\n"
    else ""
  match r.operands.reverse with
  | [] => ended files 1 "" (warning ++ missingOperand inv.program "file operand")
  | [only] => ended files 1 "" (warning ++ inv.program ++ ": missing destination file operand after " ++
      quoted only ++ "\nTry '" ++ inv.program ++ " --help' for more information.\n")
  | dest :: revSources =>
    let sources := revSources.reverse
    let intoDir := files.isDir inv.cwd (Bytes.toText dest)
    if sources.length > 1 && !intoDir then
      ended files 1 "" (warning ++ complaint inv.program ("target " ++ quoted dest ++ " is not a directory"))
    else
      let st : CopyStyle := {
        tool := inv.program, cwd := inv.cwd, recursive, verbose := r.has "v",
        noClobber := clobber == "n", interactive := clobber == "i" }
      let c := sources.foldl (fun c s =>
        let target := if intoDir then below dest (baseName s) else dest
        match nodeOf c.files inv.cwd s, c.files.resolve inv.cwd (Bytes.toText s),
            c.files.resolve inv.cwd (Bytes.toText target) with
        | .ok .directory, .ok a, .ok b =>
          if recursive && a.location.isPrefixOf b.location then
            c.fault inv.program ("cannot copy a directory, " ++ quoted s ++ ", into itself, " ++
              quoted target)
          else copyPath st (files.entries.length + 2) c s target
        | _, _, _ => copyPath st (files.entries.length + 2) c s target)
        ({ files, answers := answerLines inv.stdin, err := warning } : Copying)
      ended c.files (if c.failed then 1 else 0) c.out c.err

/-- The tree with everything at and below one location moved to another, which is emptied
first. -/
def moveTree (t : FileTree) (src dst : Location) : FileTree :=
  let t := t.eraseBelow dst
  ⟨t.entries.map fun (l, n) =>
    if src.isPrefixOf l then (dst ++ l.drop src.length, n) else (l, n)⟩

/-- `mv`. -/
def move (inv : Invocation) (files : FileTree) : Completion :=
  withOptions inv files mvTable 1 fun r =>
  match r.operands.reverse with
  | [] => ended files 1 "" (missingOperand inv.program "file operand")
  | [only] => ended files 1 "" (inv.program ++ ": missing destination file operand after " ++
      quoted only ++ "\nTry '" ++ inv.program ++ " --help' for more information.\n")
  | dest :: revSources =>
    let sources := revSources.reverse
    let intoDir := files.isDir inv.cwd (Bytes.toText dest) && !r.has "T"
    if sources.length > 1 && !intoDir then
      ended files 1 "" (complaint inv.program ("target " ++ quoted dest ++ " is not a directory"))
    else
      let clobber := r.options.foldl (fun m (k, _) =>
        if k == "n" || k == "i" || k == "f" then k else m) "f"
      let (t, out, _, err, failed) := sources.foldl (fun (t, out, answers, err, failed) s =>
        let target := if intoDir then below dest (baseName s) else dest
        let fault (m : Bytes) := (t, out, answers, err ++ inv.program ++ ": " ++ m ++ "\n", true)
        match nodeOf t inv.cwd s, t.resolve inv.cwd (Bytes.toText s) with
        | .ok node, .ok from_ =>
          match t.resolve inv.cwd (Bytes.toText target) with
          | .error e => fault ("cannot move " ++ quoted s ++ " to " ++ quoted target ++ ": " ++ e.text)
          | .ok to_ =>
            let there := t.get? to_.location
            if from_.location == to_.location then
              fault (quoted s ++ " and " ++ quoted target ++ " are the same file")
            else if node.isDirectory && from_.location.isPrefixOf to_.location then
              fault ("cannot move " ++ quoted s ++ " to a subdirectory of itself, " ++ quoted target)
            else
              match there with
              | some .directory =>
                if !node.isDirectory then
                  fault ("cannot overwrite directory " ++ quoted target ++ " with non-directory")
                else if !(t.children to_.location).isEmpty then
                  fault ("cannot move " ++ quoted s ++ " to " ++ quoted target ++ ": Directory not empty")
                else (moveTree t from_.location to_.location, out, answers, err, failed)
              | some _ =>
                if node.isDirectory then
                  fault ("cannot overwrite non-directory " ++ quoted target ++ " with directory " ++
                    quoted s)
                else if clobber == "n" then
                  (t, out, answers, err ++ inv.program ++ ": not replacing " ++ quoted target ++ "\n", true)
                else
                  let (go, answers, err) :=
                    if clobber == "i" then
                      let err := err ++ inv.program ++ ": overwrite " ++ quoted target ++ "? "
                      match answers with
                      | [] => (false, answers, err)
                      | a :: rest => (affirmative a, rest, err)
                    else (true, answers, err)
                  if !go then (t, out, answers, err, true)
                  else (moveTree t from_.location to_.location,
                    if r.has "v" then out ++ "renamed " ++ quoted s ++ " -> " ++ quoted target ++ "\n" else out,
                    answers, err, failed)
              | none =>
                if t.isDirectoryAt to_.location.dropLast then
                  (moveTree t from_.location to_.location,
                    if r.has "v" then out ++ "renamed " ++ quoted s ++ " -> " ++ quoted target ++ "\n" else out,
                    answers, err, failed)
                else fault ("cannot move " ++ quoted s ++ " to " ++ quoted target ++ ": " ++
                  IoFault.notFound.text)
        | .error e, _ => fault ("cannot stat " ++ quoted s ++ ": " ++ e.text)
        | _, .error e => fault ("cannot stat " ++ quoted s ++ ": " ++ e.text))
        (files, "", answerLines inv.stdin, "", false)
      ended t (if failed then 1 else 0) out err

-- ============================================================================
-- chmod
-- ============================================================================

/-- Whether an argument of `chmod` is a mode written like an option, such as `-w`. -/
def modeLike (a : Bytes) : Bool :=
  a.length > 1 && a.startsWith "-" && (a.toList.drop 1).all fun c => "rwxXstugoa,+-=01234567".toList.contains c

/-- How `chmod` is asked to work: the mode text, the mask, and what it reports. -/
structure ModeStyle where
  tool : Bytes
  cwd : Location
  mode : Bytes
  mask : Nat
  recursive : Bool
  verbose : Bool
  changes : Bool

/-- The line `chmod -v` or `-c` writes about a path whose bits went from `old` to `new`. -/
def modeReport (st : ModeStyle) (p : Bytes) (old new : Nat) : Bytes :=
  let shown (m : Nat) : Bytes := octalText m ++ " (" ++ modeText m ++ ")"
  if old == new then
    if st.verbose then "mode of " ++ quoted p ++ " retained as " ++ shown old ++ "\n" else ""
  else if st.verbose || st.changes then
    "mode of " ++ quoted p ++ " changed from " ++ shown old ++ " to " ++ shown new ++ "\n"
  else ""

/-- Set the bits of a path, and with `recursive` of everything below a directory, in byte order
after the directory itself. A directory keeps no bits of its own here and reads as `rwxr-xr-x`. -/
def modePath (st : ModeStyle) : Nat → FileTree × Bytes × Bytes × Bool → Bytes →
    FileTree × Bytes × Bytes × Bool
  | 0, acc, _ => acc
  | fuel + 1, (t, out, err, failed), p =>
    match nodeOf t st.cwd p, t.resolve st.cwd (Bytes.toText p) with
    | .ok (.file c old), .ok loc =>
      let new := (applyMode st.mask false st.mode old).getD old
      (t.set loc.location (.file c new), out ++ modeReport st p old new, err, failed)
    | .ok .directory, .ok loc =>
      let new := (applyMode st.mask true st.mode 0o755).getD 0o755
      let acc := (t, out ++ modeReport st p 0o755 new, err, failed)
      if st.recursive then
        let kids := ((t.children loc.location).map Bytes.ofText).mergeSort fun a b => decide (a ≤ b)
        kids.foldl (fun acc k => modePath st fuel acc (below p k)) acc
      else acc
    | .ok _, _ =>
      let new := (applyMode st.mask false st.mode 0o755).getD 0o755
      (t, out ++ modeReport st p 0o755 new, err, failed)
    | _, _ => (t, out, err ++ st.tool ++ ": cannot access " ++ quoted p ++
        ": No such file or directory\n", true)

/-- `chmod`. -/
def changeMode (inv : Invocation) (files : FileTree) : Completion :=
  let modeArg := inv.args.find? modeLike
  let rest := match modeArg with
    | some m => inv.args.erase m
    | none => inv.args
  withOptions { inv with args := rest } files chmodTable 1 fun r =>
  let (mode, targets) := match modeArg with
    | some m => (some m, r.operands)
    | none => (r.operands.head?, r.operands.drop 1)
  match mode with
  | none => ended files 1 "" (missingOperand inv.program "operand")
  | some m =>
    if targets.isEmpty then
      ended files 1 "" (inv.program ++ ": missing operand after " ++ quoted m ++ "\nTry '" ++
        inv.program ++ " --help' for more information.\n")
    else if (applyMode inv.umask false m 0o644).isNone then
      ended files 1 "" (inv.program ++ ": invalid mode: " ++ quoted m ++ "\nTry '" ++ inv.program ++
        " --help' for more information.\n")
    else
      let st : ModeStyle := {
        tool := inv.program, cwd := inv.cwd, mode := m, mask := inv.umask, recursive := r.has "R",
        verbose := r.has "v", changes := r.has "c" }
      let (t, out, err, failed) := targets.foldl (modePath st (files.entries.length + 2))
        (files, "", "", false)
      ended t (if failed then 1 else 0) out err

-- ============================================================================
-- echo and the rest
-- ============================================================================

/-- The value of a hexadecimal digit. -/
def hexValue (c : Char) : Nat :=
  if c.isDigit then c.toNat - '0'.toNat
  else if 'a' ≤ c && c ≤ 'f' then c.toNat - 'a'.toNat + 10
  else if 'A' ≤ c && c ≤ 'F' then c.toNat - 'A'.toNat + 10
  else 0

/-- Whether a character is an octal digit. -/
def isOctalDigit (c : Char) : Bool := '0' ≤ c && c ≤ '7'

/-- A text with backslash escapes done, and whether `\c` stopped it. -/
def unescape : List Char → List Char × Bool
  | [] => ([], false)
  | '\\' :: c :: rest =>
    let simple (d : Char) := let (t, stop) := unescape rest; (d :: t, stop)
    if c == 'n' then simple '\n'
    else if c == 't' then simple '\t'
    else if c == 'r' then simple '\r'
    else if c == '\\' then simple '\\'
    else if c == 'a' then simple (Char.ofNat 7)
    else if c == 'b' then simple (Char.ofNat 8)
    else if c == 'f' then simple (Char.ofNat 12)
    else if c == 'v' then simple (Char.ofNat 11)
    else if c == 'e' then simple (Char.ofNat 27)
    else if c == 'c' then ([], true)
    else if c == '0' then
      let ds := (rest.takeWhile isOctalDigit).take 3
      let (t, stop) := unescape (rest.drop ds.length)
      (Char.ofNat (ds.foldl (fun n d => 8 * n + hexValue d) 0 % 256) :: t, stop)
    else if c == 'x' && (rest.head?.map Char.isHexDigit).getD false then
      let ds := (rest.takeWhile Char.isHexDigit).take 2
      let (t, stop) := unescape (rest.drop ds.length)
      (Char.ofNat (ds.foldl (fun n d => 16 * n + hexValue d) 0) :: t, stop)
    else let (t, stop) := unescape rest; ('\\' :: c :: t, stop)
  | c :: rest => let (t, stop) := unescape rest; (c :: t, stop)
termination_by cs => cs.length
decreasing_by all_goals (simp only [List.length_cons, List.length_drop]; omega)

/-- `echo` as a program: leading options made of `n`, `e` and `E`. -/
def echo (inv : Invocation) (files : FileTree) : Completion :=
  let isFlag (a : Bytes) := a.length > 1 && a.toList.head? == some '-' &&
    a.toList.tail.all fun c => c == 'n' || c == 'e' || c == 'E'
  let flags := inv.args.takeWhile isFlag
  let words := inv.args.drop flags.length
  let letters := flags.flatMap fun f => f.toList.tail
  let newline := !letters.contains 'n'
  let escapes := letters.foldl (fun on c => if c == 'e' then true else if c == 'E' then false else on) false
  let text := " ".intercalate words
  let (body, stopped) := if escapes then unescape text.toList else (text.toList, false)
  ended files 0 (String.ofList body ++ (if newline && !stopped then "\n" else "")) ""

theorem makeDirectory_missing (cwd : Location) (files : FileTree) :
    (makeDirectory { program := "mkdir", args := [], cwd } files).exit = .code 1 := rfl

end BuildRecipe.Utilities
