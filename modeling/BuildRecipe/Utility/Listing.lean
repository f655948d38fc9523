import BuildRecipe.Utility.Basic
import BuildRecipe.Shell.Pattern
/-!
# Listing directories

`ls [options] [path…]` lists the files given, then the entries of each directory given, in the
`C` locale and as to a file or a pipe:

* which entries: those not starting with `.` (all with `-a`, all but `.` and `..` with `-A`),
  less those matching an `-I` pattern, a `--hide` pattern (without `-a` or `-A`) or, with
  `-B`, ending in `~`;
* in what order: by name in byte order, by size (`-S`), by extension (`-X`), by version
  (`-v`), by width, or as found (`-U`, `-f`); reversed with `-r`, directories first with
  `--group-directories-first`;
* how: one a line, joined by commas (`-m`), or in columns filled down (`-C`) or across (`-x`)
  under the width (80, `COLUMNS` or `-w`), each name quoted in the style asked (`-Q`, `-b`,
  `-N`, `--quoting-style`), marked after (`-p`, `-F`, `--file-type`) and led by the blocks it
  takes (`-s`, counted in units of `--block-size`, `-k`, or read by people with `-h` and
  `--si`); `-R` goes into every directory below.

The options are read in order, a later one overriding an earlier one of its kind. A word an
option does not know, among the words it takes, ends `ls` with the words it does know.

Main statements: a count of blocks in units is the fewest units that hold them
(`blockText_units_least`), and the shell styles leave a name bare exactly when nothing in it
means anything to the shell (`shellQuoted_eq_self_iff`).
-/

namespace BuildRecipe.Utilities

/-- How `ls` lays out the names of a listing: one a line, joined by commas, in columns filled
down (`-C`) or across (`-x`), or in the long form, which is written one a line. -/
inductive LsLayout where
  | lines
  | commas
  | down
  | across
  | long
  deriving DecidableEq, Repr, Inhabited

/-- The order `ls` sorts entries in. Times are not kept, so a time order is the name order. -/
inductive LsSort where
  | name
  | unsorted
  | size
  | time
  | extension
  | version
  | width
  deriving DecidableEq, Repr, Inhabited

/-- The mark `ls` writes after a name: none, `/` after a directory, and also `*` after an
executable file. -/
inductive LsMarks where
  | none
  | slash
  | fileType
  | classify
  deriving DecidableEq, Repr, Inhabited

/-- The styles a name can be quoted in. -/
inductive Quoting where
  | literal
  | shell
  | shellAlways
  | shellEscape
  | shellEscapeAlways
  | c
  | cMaybe
  | escape
  | locale
  | clocale
  deriving DecidableEq, Repr, Inhabited

/-- How block counts are written: whole units of a size, with a suffix or not, or scaled to a
power of 1024 or 1000 for people. -/
inductive SizeUnit where
  | units (size : Nat) (suffix : Bytes)
  | human (base : Nat)
  deriving DecidableEq, Repr, Inhabited

/-- Which entries a directory's listing takes before the patterns: those not starting with `.`,
all, or all but `.` and `..`. -/
inductive LsShown where
  | visible
  | all
  | almostAll
  deriving DecidableEq, Repr, Inhabited

/-- What `ls` is asked to show and how. -/
structure LsStyle where
  shown : LsShown := .visible
  ignore : List Bytes := []
  hide : List Bytes := []
  directory : Bool := false
  reverse : Bool := false
  marks : LsMarks := .none
  layout : LsLayout := .lines
  recursive : Bool := false
  order : LsSort := .name
  dirsFirst : Bool := false
  blocks : Bool := false
  unit : SizeUnit := .units 1024 ""
  quoting : Quoting := .literal
  hideControl : Bool := false
  /-- The line width columns must stay under; none for no limit. -/
  width : Option Nat := some 80
  /-- How far apart tab stops are; 0 to pad with blanks only. -/
  tabSize : Nat := 8
  /-- The byte that ends each line of names: a newline, or NUL with `--zero`. -/
  ending : Char := '\n'
  deriving Repr, Inhabited

/-- An entry `ls` shows: its name as written, and what it is. -/
structure LsEntry where
  name : Bytes
  node : Node

-- ============================================================================
-- Sizes
-- ============================================================================

/-- The size `ls -S` sorts by: the bytes of a file, 4096 for a directory. -/
def entrySize (n : Node) : Nat :=
  match n with
  | .file c _ => c.length
  | .directory => 4096
  | .executable _ => 65536

/-- The space an entry takes, in kibibytes: whole blocks of 4096 bytes. -/
def entryBlocks (n : Node) : Nat :=
  (entrySize n + 4095) / 4096 * 4

/-- A quotient rounded up. -/
def ceilDiv (a b : Nat) : Nat := (a + b - 1) / b

/-- The letters of the powers of a base, from the first. -/
def powerLetters (base : Nat) : List Char :=
  (if base == 1000 then 'k' else 'K') :: "MGTPEZYRQ".toList

/-- A count of bytes for people: below the base as it is; else scaled to the largest power
that keeps it at least one, rounded up, with one decimal below ten, and the power's letter. -/
def humanSize (base bytes : Nat) : Bytes :=
  if bytes < base then Nat.repr bytes
  else
    let rec go : Nat → Nat → List Char → Bytes
      | 0, _, _ => Nat.repr bytes
      | _ + 1, _, [] => Nat.repr bytes
      | fuel + 1, scale, letter :: more =>
        let next := scale * base
        if bytes ≥ next * base && !more.isEmpty then go fuel next more
        else
          let tenths := ceilDiv (bytes * 10) next
          if tenths < 100 then
            Nat.repr (tenths / 10) ++ "." ++ Nat.repr (tenths % 10) ++ String.singleton letter
          else
            let whole := ceilDiv bytes next
            if whole ≥ base && !more.isEmpty then go fuel next more
            else Nat.repr whole ++ String.singleton letter
    go 12 1 (powerLetters base)

/-- The text of a block count given in kibibytes. -/
def blockText (u : SizeUnit) (kib : Nat) : Bytes :=
  match u with
  | .units size suffix => Nat.repr (ceilDiv (kib * 1024) (max 1 size)) ++ suffix
  | .human base => humanSize base (kib * 1024)

/-- The unit a `--block-size` argument names: an optional count, then an optional power letter
with `B` for powers of 1000 or `iB` for powers of 1024; the suffix is written when no count is
given. `human-readable` and `si` ask for sizes for people. -/
def readBlockSize (v : Bytes) : Option SizeUnit :=
  if v == "human-readable" then some (.human 1024)
  else if v == "si" then some (.human 1000)
  else
    let cs := v.toList
    let digits := cs.takeWhile Char.isDigit
    let rest := cs.drop digits.length
    let count := if digits.isEmpty then 1 else (String.ofList digits).toNat!
    let letters := "KMGTPEZYRQ".toList
    let power (c : Char) : Option Nat := (letters.idxOf? c.toUpper).map (· + 1)
    let scaled : Option (Nat × Bytes) := match rest with
      | [] => some (1, "")
      | [c] => (power c).map fun k => (Nat.pow 1024 k, String.singleton c.toUpper)
      | [c, 'B'] => (power c).map fun k =>
        (Nat.pow 1000 k, String.ofList [if c.toUpper == 'K' then 'k' else c.toUpper, 'B'])
      | [c, 'i', 'B'] => (power c).map fun k => (Nat.pow 1024 k, String.ofList [c.toUpper, 'i', 'B'])
      | _ => none
    match scaled with
    | none => none
    | some (size, suffix) =>
      if count == 0 then none
      else some (.units (count * size) (if digits.isEmpty then suffix else ""))

-- ============================================================================
-- Quoting
-- ============================================================================

/-- Whether a byte shows as itself in the `C` locale. -/
def isShown (c : Char) : Bool := 32 ≤ c.toNat && c.toNat ≤ 126

/-- A byte that does not show, written as an escape of C: a letter for the usual controls,
else three octal digits. -/
def cEscape (c : Char) : List Char :=
  match c.toNat with
  | 7 => ['\\', 'a']
  | 8 => ['\\', 'b']
  | 9 => ['\\', 't']
  | 10 => ['\\', 'n']
  | 11 => ['\\', 'v']
  | 12 => ['\\', 'f']
  | 13 => ['\\', 'r']
  | n =>
    let ds := Nat.toDigits 8 n
    '\\' :: (List.replicate (3 - ds.length) '0' ++ ds)

/-- The bytes a shell gives a meaning to, which make the shell styles quote a name: blanks, the
usual controls, and `! " $ & ( ) * ; < = > ? [ \ ^ ` and `|`; `#` and `~` only at the start. -/
def shellSpecial (first : Bool) (c : Char) : Bool :=
  " !\"$&()*;<=>?[\\^`|'".toList.contains c || [7, 8, 9, 10, 11, 12, 13].contains c.toNat ||
    (first && (c == '#' || c == '~'))

/-- The bytes that mean the same inside double quotes of C and of the shell. -/
def doubleQuoteSafe (first : Bool) (c : Char) : Bool :=
  c.isAlphanum || " %+,-./:@]_'".toList.contains c || (first && (c == '#' || c == '~'))

/-- A name in single quotes for the shell, each `'` written `'\''`; with `escapes`, the bytes
that do not show are written `$'\ooo'` between the quoted runs. -/
def singleQuoted (escapes : Bool) (cs : List Char) : List Char :=
  let rec go : List Char → Bool → List Char
    | [], _ => ['\'']
    | c :: rest, pending =>
      if escapes && !isShown c then
        (if pending then [] else ['\'', '$', '\'']) ++ cEscape c ++ go rest true
      else
        (if pending then ['\'', '\''] else []) ++
          (if c == '\'' then ['\'', '\\', '\'', '\''] else [c]) ++ go rest false
  '\'' :: go cs false

/-- A name quoted for the shell when it needs it (always with `always`): in double quotes when
it holds a `'` and nothing that means more inside them, else in single quotes. -/
def shellQuoted (escapes always : Bool) (cs : List Char) : List Char :=
  let marks := cs.zipIdx.map fun (c, i) => (c, i == 0)
  let needs := marks.any fun (c, first) => shellSpecial first c || (escapes && !isShown c)
  if !needs && !always then cs
  else if cs.contains '\'' && marks.all (fun (c, first) => doubleQuoteSafe first c) then
    '"' :: cs ++ ['"']
  else singleQuoted escapes cs

/-- A name in double quotes with the escapes of C. -/
def cQuoted (cs : List Char) : List Char :=
  '"' :: cs.flatMap (fun c =>
    if c == '"' then ['\\', '"'] else if c == '\\' then ['\\', '\\']
    else if isShown c then [c] else cEscape c) ++ ['"']

/-- A name as a quoting style writes it. -/
def quoteName (q : Quoting) (name : Bytes) : Bytes :=
  let cs := name.toList
  String.ofList <| match q with
  | .literal => cs
  | .shell => shellQuoted false false cs
  | .shellAlways => shellQuoted false true cs
  | .shellEscape => shellQuoted true false cs
  | .shellEscapeAlways => shellQuoted true true cs
  | .c | .clocale => cQuoted cs
  | .cMaybe => if cs.any (fun c => c == '"' || !isShown c) then cQuoted cs else cs
  | .escape => cs.flatMap fun c =>
    if c == '\\' then ['\\', '\\'] else if c == ' ' then ['\\', ' ']
    else if isShown c then [c] else cEscape c
  | .locale => '\'' :: cs.flatMap (fun c =>
    if c == '\'' then ['\\', '\''] else if c == '\\' then ['\\', '\\']
    else if isShown c then [c] else cEscape c) ++ ['\'']

/-- Whether a style sets a blank before the names it leaves bare, in columns where some name
is quoted, so that the names line up. -/
def Quoting.aligns : Quoting → Bool
  | .shell | .shellEscape | .cMaybe => true
  | _ => false

/-- The columns a text takes in the `C` locale: one for each byte that shows or is past the
controls, none for a control. -/
def textWidth (b : Bytes) : Nat :=
  (b.toList.filter fun c => isShown c || c.toNat ≥ 128).length

-- ============================================================================
-- Order
-- ============================================================================

/-- The rank of a byte in a version's text: digits apart, letters first, then the end, then
`~` before everything, then the other bytes. -/
def versionRank (c : Option Char) : Int :=
  match c with
  | none => -1
  | some c =>
    if c.isDigit then 0 else if c.isAlpha then c.toNat
    else if c == '~' then -2 else c.toNat + 256

/-- Versions compared: runs of other bytes by rank, runs of digits by value. -/
def versionCompare : Nat → List Char → List Char → Ordering
  | 0, _, _ => .eq
  | _ + 1, [], [] => .eq
  | fuel + 1, a, b =>
    if (a.head?.map (!·.isDigit)).getD false || (b.head?.map (!·.isDigit)).getD false then
      let ra := versionRank a.head?
      let rb := versionRank b.head?
      if ra < rb then .lt else if rb < ra then .gt
      else versionCompare fuel a.tail b.tail
    else
      let a := a.dropWhile (· == '0')
      let b := b.dropWhile (· == '0')
      let da := a.takeWhile Char.isDigit
      let db := b.takeWhile Char.isDigit
      if da.length != db.length then (if da.length < db.length then .lt else .gt)
      else if da != db then (if decide (String.ofList da < String.ofList db) then .lt else .gt)
      else versionCompare fuel (a.drop da.length) (b.drop db.length)

/-- The length of a name without its suffix: the longest run at its end of `.` and a letter or
`~`, then letters, digits and `~`. -/
def versionPrefix (cs : List Char) : Nat :=
  let arr := cs.toArray
  let n := arr.size
  -- the suffix starts at each `.` that a letter or `~` follows and that nothing else follows
  -- but more of the same
  let rec scan : Nat → Nat → Nat → Nat
    | 0, _, keep => keep
    | fuel + 1, i, keep =>
      if i ≥ n then keep
      else
        let i := i + 1
        let rec skip : Nat → Nat → Nat
          | 0, j => j
          | f + 1, j =>
            if j + 1 < n && arr.getD j ' ' == '.' &&
                ((arr.getD (j + 1) ' ').isAlpha || arr.getD (j + 1) ' ' == '~') then
              let k := ((List.range (n - (j + 2))).map (· + (j + 2))).find? fun k =>
                !((arr.getD k ' ').isAlphanum || arr.getD k ' ' == '~')
              skip f (k.getD n)
            else j
        let after := skip (n + 1) i
        scan fuel after i
  scan (n + 1) 0 0

/-- Names compared as versions: `.` first, then `..`, then other names starting with `.`, then
the rest; their texts without suffixes first, then whole. -/
def fileVersionCompare (a b : List Char) : Ordering :=
  match a, b with
  | [], [] => .eq
  | [], _ => .lt
  | _, [] => .gt
  | _, _ =>
    let rank (cs : List Char) : Nat :=
      if cs == ['.'] then 0 else if cs == ['.', '.'] then 1 else if cs.head? == some '.' then 2 else 3
    if rank a != rank b && (rank a < 3 || rank b < 3) then
      (if rank a < rank b then .lt else .gt)
    else
      let pa := versionPrefix a
      let pb := versionPrefix b
      let fuel := a.length + b.length + 2
      match versionCompare fuel (a.take pa) (b.take pb) with
      | .eq => if pa == a.length && pb == b.length then .eq else versionCompare fuel a b
      | o => o

/-- The extension `ls -X` sorts by: from the last `.` on, or nothing. -/
def extensionOf (name : Bytes) : Bytes :=
  let cs := name.toList
  match (cs.zipIdx.filter (·.1 == '.')).getLast? with
  | some (_, i) => String.ofList (cs.drop i)
  | none => ""

/-- Whether one entry comes before another in an order, names deciding ties. -/
def LsSort.before (o : LsSort) (a b : LsEntry) : Bool :=
  let byName := decide (a.name ≤ b.name)
  match o with
  | .name | .time | .unsorted => byName
  | .size =>
    entrySize a.node > entrySize b.node || (entrySize a.node == entrySize b.node && byName)
  | .extension =>
    let ea := extensionOf a.name
    let eb := extensionOf b.name
    decide (ea < eb) || (ea == eb && byName)
  | .width =>
    textWidth a.name < textWidth b.name || (textWidth a.name == textWidth b.name && byName)
  | .version =>
    match fileVersionCompare a.name.toList b.name.toList with
    | .lt => true
    | .gt => false
    | .eq => byName

/-- Entries in the order `ls` shows them. -/
def lsOrder (st : LsStyle) (es : List LsEntry) : List LsEntry :=
  let sorted := if st.order == .unsorted then es else es.mergeSort st.order.before
  let sorted := if st.reverse && st.order != .unsorted then sorted.reverse else sorted
  if st.dirsFirst then sorted.filter (·.node.isDirectory) ++ sorted.filter (!·.node.isDirectory)
  else sorted

-- ============================================================================
-- Entries
-- ============================================================================

/-- Whether a name matches a pattern of `-I` or `--hide`, a leading `.` matched only by a `.`. -/
def namePatternMatches (pattern name : Bytes) : Bool :=
  (!name.startsWith "." || pattern.startsWith ".") &&
    Shell.Pattern.test (Shell.PatChar.ofText pattern) name

/-- Whether a directory's listing leaves a name out. -/
def LsStyle.leavesOut (st : LsStyle) (name : Bytes) : Bool :=
  let dotted := name.startsWith "."
  let dots := name == "." || name == ".."
  (match st.shown with
    | .visible => dotted
    | .almostAll => dots
    | .all => false) ||
  (st.shown == .visible && st.hide.any (namePatternMatches · name)) ||
  st.ignore.any (namePatternMatches · name)

/-- The mark after a name. -/
def markOf (m : LsMarks) (n : Node) : Bytes :=
  match m with
  | .none => ""
  | .slash | .fileType => if n.isDirectory then "/" else ""
  | .classify =>
    match n with
    | .directory => "/"
    | .executable _ => "*"
    | .file _ mode => if mode &&& 0o111 != 0 then "*" else ""

/-- A name as written in a listing: quoted, its hidden bytes shown as `?` under `-q`. -/
def shownName (st : LsStyle) (name : Bytes) : Bytes :=
  let q := quoteName st.quoting name
  if st.hideControl then String.ofList (q.toList.map fun c => if isShown c then c else '?') else q

/-- The cells of a listing: each entry's block count, right-aligned to the widest when `pad`,
its name and its mark; with a style that aligns, a blank before each bare name when some name
is quoted. -/
def entryCells (st : LsStyle) (pad : Bool) (es : List LsEntry) : List Bytes :=
  let names := es.map fun e => shownName st e.name
  let someQuoted := (es.zip names).any fun (e, n) => n != e.name
  let lead := st.quoting.aligns && someQuoted && (st.layout == .down || st.layout == .across)
  let counts := es.map fun e => blockText st.unit (entryBlocks e.node)
  let widest := (counts.map String.length).foldl max 0
  ((es.zip names).zip counts).map fun ((e, n), count) =>
    let blocks :=
      if st.blocks then
        (if pad then String.ofList (List.replicate (widest - count.length) ' ') else "") ++ count ++ " "
      else ""
    let lead := if lead && n == e.name then " " else ""
    blocks ++ lead ++ n ++ markOf st.marks e.node

-- ============================================================================
-- Layout
-- ============================================================================

/-- Blank space from one column to a later one: tabs to each tab stop that is passed before the
last column, blanks for the rest. -/
def padding (tabSize : Nat) : Nat → Nat → Nat → List Char
  | 0, _, _ => []
  | fuel + 1, here, target =>
    if here ≥ target then []
    else if tabSize != 0 && target / tabSize > (here + 1) / tabSize then
      '\t' :: padding tabSize fuel (here + tabSize - here % tabSize) target
    else ' ' :: padding tabSize fuel (here + 1) target

/-- The widths of the columns when names of widths `lens` are set in `cols` columns: the
widest name of each column, two more for every column but the last, and at least 3. -/
def columnWidths (down : Bool) (lens : List Nat) (cols : Nat) : List Nat :=
  let n := lens.length
  let rows := (n + cols - 1) / cols
  (List.range cols).map fun c =>
    let idx (i : Nat) : Nat := if down then i / rows else i % cols
    (lens.zipIdx.filterMap fun (len, i) =>
      if idx i == c then some (len + (if c == cols - 1 then 0 else 2)) else none).foldl max 3

/-- The most columns, up to one a name and a third of the width rounded up, whose widths add up
to less than the width; one when none do. -/
def columnCount (down : Bool) (width : Option Nat) (lens : List Nat) : Nat :=
  match width with
  | none => max 1 lens.length
  | some w =>
    let most := min (max 1 (w / 3 + (if w % 3 != 0 then 1 else 0))) lens.length
    let fits (cols : Nat) : Bool := (columnWidths down lens cols).foldr (· + ·) 0 < w
    ((List.range (most + 1)).filter fun c => c ≥ 1 && fits c).getLast?.getD 1

/-- Cells set in columns, each line padded between columns and ended. -/
def columnLines (st : LsStyle) (down : Bool) (texts : List Bytes) : Bytes :=
  let lens := texts.map textWidth
  let n := texts.length
  let cols := columnCount down st.width lens
  let widths := columnWidths down lens cols
  let rows := (n + cols - 1) / cols
  let members : List (List Nat) :=
    (List.range rows).map fun r => (List.range cols).filterMap fun c =>
      let i := if down then c * rows + r else r * cols + c
      if i < n then some i else none
  let line (is : List Nat) : Bytes :=
    let (out, _, _) := is.foldl (fun (out, pos, c) i =>
      let here := pos + lens.getD i 0
      let w := widths.getD c 0
      let pad : List Char := if c + 1 == is.length then [] else padding st.tabSize (w + 1) here (pos + w)
      (out ++ texts.getD i "" ++ String.ofList pad, pos + w, c + 1)) ("", 0, 0)
    out ++ String.singleton st.ending
  String.join (members.map line)

/-- Entries written as `ls` writes them to a file or a pipe. -/
def lsColumn (st : LsStyle) (es : List LsEntry) : Bytes :=
  if es.isEmpty then ""
  else
    match st.layout with
    | .commas =>
      let limit := st.width.getD 0
      let (out, _) := (entryCells st false es).foldl (fun (acc, pos) text =>
        let len := textWidth text
        if acc.isEmpty && pos == 0 then (text, len)
        else if st.width.isNone || pos + len + 2 < limit then (acc ++ ", " ++ text, pos + 2 + len)
        else (acc ++ ",\n" ++ text, len)) ("", 0)
      out ++ String.singleton st.ending
    | .lines | .long => String.join ((entryCells st true es).map (· ++ String.singleton st.ending))
    | .down => columnLines st true (entryCells st true es)
    | .across => columnLines st false (entryCells st true es)

/-- The entries of a directory `ls` shows. -/
def lsEntries (st : LsStyle) (files : FileTree) (l : Location) : List LsEntry :=
  let names := [".", ".."] ++ (files.children l).map Bytes.ofText
  let names := names.filter fun n => !st.leavesOut n
  lsOrder st (names.map fun n =>
    let node := if n == "." || n == ".." then .directory
      else (files.get? (l ++ [Bytes.toText n])).getD .directory
    ⟨n, node⟩)

/-- The listing of a directory and, with `-R`, of the directories below it, each block
headed by its path when `headed`, and by the blocks it takes with `-s`. -/
def lsTree (st : LsStyle) (files : FileTree) : Nat → Bool → Bytes → Location → List Bytes
  | 0, _, _, _ => []
  | fuel + 1, headed, path, l =>
    let es := lsEntries st files l
    let total := if st.blocks then
        "total " ++ blockText st.unit ((es.map fun e => entryBlocks e.node).foldr (· + ·) 0) ++ "\n"
      else ""
    let block := (if headed then shownName st path ++ ":\n" else "") ++ total ++ lsColumn st es
    let subs := if st.recursive then
        es.filter fun e => e.node.isDirectory && e.name != "." && e.name != ".."
      else []
    block :: subs.flatMap fun e =>
      lsTree st files fuel true (below path e.name) (l ++ [Bytes.toText e.name])

-- ============================================================================
-- Options
-- ============================================================================

/-- The options of `ls`. -/
def listTable : OptionTable where
  flags := "abcdfghiklmnopqrstuvxABCDFGHLNQRSUXZ1".toList
  valued := ['w', 'I', 'T']
  long := [longOf "all" "a" .none, longOf "escape" "b" .none, longOf "directory" "d" .none,
    longOf "dired" "D" .none, longOf "full-time" "full-time" .none,
    longOf "group-directories-first" "group-directories-first" .none,
    longOf "human-readable" "h" .none, longOf "inode" "i" .none,
    longOf "kibibytes" "k" .none, longOf "numeric-uid-gid" "n" .none,
    longOf "no-group" "G" .none, longOf "hide-control-chars" "q" .none,
    longOf "reverse" "r" .none, longOf "size" "s" .none, longOf "width" "w" .required,
    longOf "almost-all" "A" .none, longOf "ignore-backups" "B" .none,
    longOf "classify" "F" .optional, longOf "file-type" "file-type" .none,
    longOf "si" "si" .none, longOf "dereference-command-line" "H" .none,
    longOf "dereference-command-line-symlink-to-dir"
      "dereference-command-line-symlink-to-dir" .none,
    longOf "hide" "hide" .required, longOf "ignore" "I" .required,
    longOf "indicator-style" "indicator-style" .required, longOf "dereference" "L" .none,
    longOf "literal" "N" .none, longOf "quote-name" "Q" .none,
    longOf "quoting-style" "quoting-style" .required, longOf "recursive" "R" .none,
    longOf "format" "format" .required, longOf "show-control-chars" "show-control-chars" .none,
    longOf "sort" "sort" .required, longOf "tabsize" "T" .required,
    longOf "time" "time" .required, longOf "time-style" "time-style" .required,
    longOf "hyperlink" "hyperlink" .optional, longOf "color" "color" .optional,
    longOf "block-size" "block-size" .required, longOf "context" "Z" .none,
    longOf "author" "author" .none, longOf "zero" "zero" .none] ++ commonLong

/-- The words an option of `ls` takes, grouped by what they mean, each group with the value it
stands for. -/
def choicesOf (option : Bytes) : List (List Bytes × Bytes) :=
  match option with
  | "sort" => [(["none"], "none"), (["time"], "time"), (["size"], "size"),
      (["extension"], "extension"), (["version"], "version"), (["width"], "width")]
  | "format" => [(["verbose", "long"], "long"), (["commas"], "commas"),
      (["horizontal", "across"], "across"), (["vertical"], "vertical"),
      (["single-column"], "single-column")]
  | "indicator-style" => [(["none"], "none"), (["slash"], "slash"), (["file-type"], "file-type"),
      (["classify"], "classify")]
  | "quoting-style" => [(["literal"], "literal"), (["shell"], "shell"),
      (["shell-always"], "shell-always"), (["shell-escape"], "shell-escape"),
      (["shell-escape-always"], "shell-escape-always"), (["c"], "c"), (["c-maybe"], "c-maybe"),
      (["escape"], "escape"), (["locale"], "locale"), (["clocale"], "clocale")]
  | "time" => [(["atime", "access", "use"], "atime"), (["ctime", "status"], "ctime"),
      (["mtime", "modification"], "mtime"), (["birth", "creation"], "birth")]
  | _ => [(["always", "yes", "force"], "always"), (["never", "no", "none"], "never"),
      (["auto", "tty", "if-tty"], "auto")]

/-- The value an option's word stands for: the word itself, or the one word it begins; else
the complaint, which lists the words. -/
def readChoice (tool option word : Bytes) : Except Bytes Bytes :=
  let groups := choicesOf option
  let exact := groups.find? fun (ws, _) => ws.contains word
  let starting := groups.filter fun (ws, _) => ws.any (·.startsWith word)
  let refuse (what : Bytes) : Except Bytes Bytes :=
    let lines := groups.map fun (ws, _) => "  - " ++ ", ".intercalate (ws.map quoted) ++ "\n"
    .error (tool ++ ": " ++ what ++ " argument " ++ quoted word ++ " for " ++ quoted ("--" ++ option) ++
      "\nValid arguments are:\n" ++ String.join lines ++ helpHint tool)
  match exact, starting with
  | some (_, v), _ => .ok v
  | none, [(_, v)] => .ok v
  | none, [] => refuse "invalid"
  | none, _ => refuse "ambiguous"

/-- The style the options ask for, read in order, or the complaint and the code to end with. -/
def readLsStyle (tool : Bytes) (r : ReadArgs) : Except (Nat × Bytes) LsStyle :=
  r.options.foldlM (fun (st : LsStyle) (k, v) =>
    let choice (option : Bytes) : Except (Nat × Bytes) Bytes :=
      match readChoice tool option (v.getD "") with
      | .ok w => .ok w
      | .error e => .error (1, e)
    match k with
    | "a" => .ok { st with shown := .all }
    | "A" => .ok { st with shown := .almostAll }
    | "f" => .ok { st with shown := .all, order := .unsorted, blocks := false }
    | "B" => .ok { st with ignore := st.ignore ++ ["*~", ".*~"] }
    | "I" => .ok { st with ignore := st.ignore ++ [v.getD ""] }
    | "hide" => .ok { st with hide := st.hide ++ [v.getD ""] }
    | "d" => .ok { st with directory := true }
    | "r" => .ok { st with reverse := true }
    | "R" => .ok { st with recursive := true }
    | "p" => .ok { st with marks := .slash }
    | "file-type" => .ok { st with marks := .fileType }
    | "F" =>
      match v with
      | none => .ok { st with marks := .classify }
      | some _ => (choice "classify").map fun w =>
        { st with marks := if w == "always" then .classify else .none }
    | "indicator-style" => (choice "indicator-style").map fun w =>
      { st with marks := match w with
        | "slash" => .slash
        | "file-type" => .fileType
        | "classify" => .classify
        | _ => .none }
    | "1" => .ok { st with layout := .lines }
    | "m" => .ok { st with layout := .commas }
    | "C" => .ok { st with layout := .down }
    | "x" => .ok { st with layout := .across }
    | "l" | "n" | "o" | "g" => .ok { st with layout := .long }
    | "format" => (choice "format").map fun w =>
      { st with layout := match w with
        | "long" => .long
        | "commas" => .commas
        | "across" => .across
        | "vertical" => .down
        | _ => .lines }
    | "S" => .ok { st with order := .size }
    | "t" => .ok { st with order := .time }
    | "U" => .ok { st with order := .unsorted }
    | "X" => .ok { st with order := .extension }
    | "v" => .ok { st with order := .version }
    | "sort" => (choice "sort").map fun w =>
      { st with order := match w with
        | "none" => .unsorted
        | "time" => .time
        | "size" => .size
        | "extension" => .extension
        | "version" => .version
        | _ => .width }
    | "time" => (choice "time").map fun _ => st
    | "color" | "hyperlink" =>
      match v with
      | none => .ok st
      | some _ => (choice k).map fun _ => st
    | "group-directories-first" => .ok { st with dirsFirst := true }
    | "s" => .ok { st with blocks := true }
    | "h" => .ok { st with unit := .human 1024 }
    | "si" => .ok { st with unit := .human 1000 }
    | "k" => .ok { st with unit := .units 1024 "" }
    | "block-size" =>
      match readBlockSize (v.getD "") with
      | some u => .ok { st with unit := u }
      | none => .error (2, tool ++ ": invalid --block-size argument " ++ quoted (v.getD "") ++ "\n")
    | "Q" => .ok { st with quoting := .c }
    | "N" => .ok { st with quoting := .literal }
    | "b" => .ok { st with quoting := .escape }
    | "quoting-style" => (choice "quoting-style").map fun w =>
      { st with quoting := match w with
        | "shell" => .shell
        | "shell-always" => .shellAlways
        | "shell-escape" => .shellEscape
        | "shell-escape-always" => .shellEscapeAlways
        | "c" => .c
        | "c-maybe" => .cMaybe
        | "escape" => .escape
        | "locale" => .locale
        | "clocale" => .clocale
        | _ => .literal }
    | "q" => .ok { st with hideControl := true }
    | "show-control-chars" => .ok { st with hideControl := false }
    | "zero" => .ok { st with ending := '\x00' }
    | _ => .ok st) {}

/-- `ls`. -/
def list (inv : Invocation) (files : FileTree) : Completion :=
  withOptions inv files listTable 2 fun r =>
  match readLsStyle inv.program r with
  | .error (code, e) => ended files code "" e
  | .ok st =>
  let columns := (inv.env.find? (·.1 == "COLUMNS")).map (·.2)
  let widthText := match r.value? "w" with
    | some w => some w
    | none => columns
  let width : Option Nat := match widthText.bind optionNumber with
    | some 0 => none
    | some w => some w
    | none => some 80
  let badWidth := match r.value? "w" with
    | some w => if (optionNumber w).isNone then some w else none
    | none => none
  let spread := st.layout == .commas || st.layout == .down || st.layout == .across
  let warning := match r.value? "w", columns with
    | none, some c =>
      if spread && !c.isEmpty && (optionNumber c).isNone then
        inv.program ++ ": ignoring invalid width in environment variable COLUMNS: " ++ quoted c ++ "\n"
      else ""
    | _, _ => ""
  let st := { st with
    width, recursive := st.recursive && !st.directory
    tabSize := ((r.value? "T").bind optionNumber).getD 8 }
  match badWidth with
  | some w => ended files 2 "" (inv.program ++ ": invalid line width: " ++ quoted w ++ "\n")
  | none =>
  let paths := if r.operands.isEmpty then ["."] else r.operands
  let looked := paths.map fun p => (p, nodeOf files inv.cwd p)
  let found := looked.filterMap fun (p, n) => n.toOption.map (p, ·)
  let err := String.join (looked.filterMap fun (p, n) =>
    match n with
    | .ok _ => none
    | .error e => some (inv.program ++ ": cannot access " ++ quoted p ++ ": " ++ e.text ++ "\n"))
  let plain := lsOrder st (found.filterMap fun (p, n) =>
    if st.directory || !n.isDirectory then some ⟨p, n⟩ else none)
  let dirs := lsOrder { st with dirsFirst := false } (found.filterMap fun (p, n) =>
    if !st.directory && n.isDirectory then some ⟨p, n⟩ else none)
  let headed := paths.length > 1 || st.recursive
  let fileBlock := if plain.isEmpty then [] else [lsColumn st plain]
  let blocks := dirs.flatMap fun e =>
    match files.directoryAt inv.cwd (Bytes.toText e.name) with
    | .ok l => lsTree st files (files.entries.length + 1) headed e.name l
    | .error _ => []
  let out := "\n".intercalate (fileBlock ++ blocks)
  ended files (if found.length == paths.length then 0 else 2) out (warning ++ err)

/-- A count in units rounds up: the units counted hold the size, and no fewer would. -/
theorem ceilDiv_least {a b : Nat} (hb : 0 < b) :
    a ≤ ceilDiv a b * b ∧ ∀ m, a ≤ m * b → ceilDiv a b ≤ m := by
  unfold ceilDiv
  refine ⟨?_, fun m hm => ?_⟩
  · have hdiv := Nat.div_add_mod (a + b - 1) b
    have hmod := Nat.mod_lt (a + b - 1) hb
    rw [Nat.mul_comm] at hdiv
    omega
  · rw [Nat.div_le_iff_le_mul_add_pred hb, Nat.mul_comm]
    omega

/-- The blocks `ls -s` shows in units of a block size are the fewest such units that hold
them. -/
theorem blockText_units_least (size kib : Nat) (suffix : Bytes) :
    ∃ n, blockText (.units size suffix) kib = Nat.repr n ++ suffix ∧
      kib * 1024 ≤ n * max 1 size ∧ ∀ m, kib * 1024 ≤ m * max 1 size → n ≤ m :=
  ⟨_, rfl, ceilDiv_least (by omega)⟩

example : blockText (.units 512 "") 3 = "6" ∧ blockText (.units 1000 "kB") 4 = "5kB" := by decide

example : blockText (.human 1024) 4 = "4.0K" ∧ blockText (.human 1024) 20 = "20K" ∧
    blockText (.human 1000) 4 = "4.1k" := by decide

theorem cEscape_ne_nil (c : Char) : cEscape c ≠ [] := by
  unfold cEscape
  split <;> simp

/-- Single quoting adds at least the closing quote to what is left of a name. -/
theorem length_singleQuoted_go (escapes : Bool) (cs : List Char) (pending : Bool) :
    cs.length + 1 ≤ (singleQuoted.go escapes cs pending).length := by
  induction cs generalizing pending with
  | nil => simp [singleQuoted.go]
  | cons c rest ih =>
    have hrest := ih
    unfold singleQuoted.go
    split
    · have hc := List.length_pos_iff.mpr (cEscape_ne_nil c)
      simp only [List.length_append, List.length_cons]
      have := hrest true
      omega
    · have hc : 1 ≤ (if c == '\'' then ['\'', '\\', '\'', '\''] else [c]).length := by
        split <;> simp
      simp only [List.length_append, List.length_cons]
      have := hrest false
      omega

theorem length_singleQuoted (escapes : Bool) (cs : List Char) :
    cs.length + 2 ≤ (singleQuoted escapes cs).length := by
  have := length_singleQuoted_go escapes cs false
  simp only [singleQuoted, List.length_cons]
  omega

/-- The shell styles leave a name bare exactly when no byte of it means anything to the shell
where it stands and, with escapes, every byte shows: else the name is put in quotes, which
lengthens it. -/
theorem shellQuoted_eq_self_iff (escapes : Bool) (cs : List Char) :
    shellQuoted escapes false cs = cs ↔
      ∀ p ∈ cs.zipIdx, shellSpecial (p.2 == 0) p.1 = false ∧ (escapes = false ∨ isShown p.1) := by
  unfold shellQuoted
  simp only [Bool.not_false, Bool.and_true, List.any_map, Function.comp_def]
  by_cases hneeds : (cs.zipIdx.any fun p => shellSpecial (p.2 == 0) p.1 || (escapes && !isShown p.1))
  · simp only [hneeds, Bool.not_true, Bool.false_eq_true, ↓reduceIte]
    obtain ⟨p, hp, hspecial⟩ := List.any_eq_true.mp hneeds
    have hnot : ¬ ∀ p ∈ cs.zipIdx, shellSpecial (p.2 == 0) p.1 = false ∧
        (escapes = false ∨ isShown p.1) := fun hall => by
      obtain ⟨h1, h2⟩ := hall p hp
      cases escapes <;> simp_all
    simp only [hnot, iff_false]
    split
    · intro h
      have := congrArg List.length h
      simp only [List.length_cons, List.length_append, List.length_nil] at this
      omega
    · intro h
      have := length_singleQuoted escapes cs
      rw [h] at this
      omega
  · simp only [Bool.not_eq_true] at hneeds
    simp only [hneeds, Bool.not_false, ↓reduceIte, true_iff]
    intro p hp
    have := List.any_eq_false.mp hneeds p hp
    cases escapes <;> simp_all

example : quoteName .shell "a b" = "'a b'" ∧ quoteName .shell "it's" = "\"it's\"" ∧
    quoteName .shell "ab" = "ab" := by decide

end BuildRecipe.Utilities
