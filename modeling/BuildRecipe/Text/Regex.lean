/-!
# Regular expressions

The regular expressions of `grep`, `sed` and `expr`, over bytes, in their two POSIX forms.

* In a basic expression `\(` `\)` group, `\{m,n\}` repeats, `\|`, `\+` and `\?` are the GNU
  alternation and repeats, and `( ) | + ? { }` stand for themselves. `*` at the start of the
  expression or of a group stands for itself; `^` anchors only at the start, `$` only at the end.
* In an extended expression `( ) | + ? {m,n}` are special and a backslash makes them plain;
  `^` and `$` anchor anywhere, and a repeat with nothing before it repeats the empty
  expression (`strayRepeats` finds those, which `grep` warns of).
* Both have `.`, bracket expressions `[...]` with ranges, classes `[:alpha:]` and the others,
  `[=c=]` and `[.c.]`, back references `\1` to `\9`, and GNU's `\w \W \s \S \b \B \< \>`.

A search finds the leftmost match, and of those the longest (`Compiled.search`); groups keep what
they matched last on the way the match was found, alternatives tried in order and repeats
taking as much as they can. The matcher tries each way in turn and is bounded by fuel, which
only a pathological expression could exhaust.

Main statements: a search finds the leftmost position at which the expression matches
(`search_eq_some_iff`), and there the longest of the ways it matches (`matchAt_longest`).
-/

namespace BuildRecipe.Regex

/-- An item of a bracket expression. -/
inductive ClassItem where
  | byte (c : Char)
  | range (lo hi : Char)
  | named (name : String)
  deriving DecidableEq, Repr, Inhabited

/-- A place a match may be tied to. -/
inductive Anchor where
  | lineStart
  | lineEnd
  | wordBoundary
  | notWordBoundary
  | wordStart
  | wordEnd
  deriving DecidableEq, Repr, Inhabited

/-- A regular expression, parsed. -/
inductive Pattern where
  | byte (c : Char)
  | any
  | bracket (negated : Bool) (items : List ClassItem)
  | anchor (a : Anchor)
  | group (index : Nat) (body : Pattern)
  | backref (index : Nat)
  | repeat (body : Pattern) (least : Nat) (most : Option Nat)
  | seq (parts : List Pattern)
  | alt (choices : List Pattern)
  deriving Repr, Inhabited

/-- Whether a byte is in a class of the `C` locale. -/
def inClass (name : String) (c : Char) : Bool :=
  let n := c.toNat
  let upper := 65 ≤ n && n ≤ 90
  let lower := 97 ≤ n && n ≤ 122
  let digit := 48 ≤ n && n ≤ 57
  match name with
  | "alpha" => upper || lower
  | "upper" => upper
  | "lower" => lower
  | "digit" => digit
  | "alnum" => upper || lower || digit
  | "xdigit" => digit || (97 ≤ n && n ≤ 102) || (65 ≤ n && n ≤ 70)
  | "space" => n == 32 || (9 ≤ n && n ≤ 13)
  | "blank" => n == 32 || n == 9
  | "punct" => 33 ≤ n && n ≤ 126 && !(upper || lower || digit)
  | "print" => 32 ≤ n && n ≤ 126
  | "graph" => 33 ≤ n && n ≤ 126
  | "cntrl" => n < 32 || n == 127
  | _ => false

/-- The names of the classes. -/
def classNames : List String :=
  ["alpha", "upper", "lower", "digit", "alnum", "xdigit", "space", "blank", "punct", "print",
    "graph", "cntrl"]

/-- A byte in lower case, when case is ignored. -/
def fold (icase : Bool) (c : Char) : Char :=
  if icase && 'A' ≤ c && c ≤ 'Z' then Char.ofNat (c.toNat + 32) else c

/-- Whether a byte is one of a bracket expression's items. -/
def ClassItem.holds (icase : Bool) (c : Char) : ClassItem → Bool
  | .byte d => fold icase d == fold icase c
  | .range lo hi =>
    (lo ≤ c && c ≤ hi) ||
      (icase && ((lo ≤ c.toUpper && c.toUpper ≤ hi) || (lo ≤ c.toLower && c.toLower ≤ hi)))
  | .named n => inClass n c || (icase && (n == "upper" || n == "lower") && inClass "alpha" c)

/-- Whether a byte makes words: a letter, a digit or `_`. -/
def isWordByte (c : Char) : Bool := c.isAlphanum || c == '_'

-- ============================================================================
-- Parsing
-- ============================================================================

/-- The reader's state: the text left, the groups opened so far, and how many are open. -/
structure Reading where
  rest : List Char
  groups : Nat
  depth : Nat := 0
  deriving Repr, Inhabited

/-- A parsing step: the value and the reader after it, or the complaint. -/
abbrev Parsed (α : Type) := Except String (α × Reading)

/-- A bracket expression after its `[`: the items up to the closing `]`. -/
def bracketItems : Nat → List Char → List ClassItem → Bool → Except String (List ClassItem × List Char)
  | 0, _, _, _ => .error "Unmatched [, [^, [:, [., or [="
  | _ + 1, [], _, _ => .error "Unmatched [, [^, [:, [., or [="
  | fuel + 1, c :: rest, acc, first =>
    if c == ']' && !first then .ok (acc.reverse, rest)
    else
      -- one element: a class, an equivalence, a collating element, or a byte
      let element : Except String (Option ClassItem × Char × List Char) :=
        match c, rest with
        | '[', ':' :: more =>
          let name := more.takeWhile (· != ':')
          match more.drop name.length with
          | ':' :: ']' :: after =>
            if classNames.contains (String.ofList name) then .ok (some (.named (String.ofList name)), c, after)
            else .error "Invalid character class name"
          | _ => .error "Unmatched [, [^, [:, [., or [="
        | '[', '=' :: d :: '=' :: ']' :: after => .ok (none, d, after)
        | '[', '.' :: d :: '.' :: ']' :: after => .ok (none, d, after)
        | _, _ => .ok (none, c, rest)
      match element with
      | .error e => .error e
      | .ok (some item, _, after) => bracketItems fuel after (item :: acc) false
      | .ok (none, lo, after) =>
        match after with
        | '-' :: hi :: more =>
          if hi == ']' then bracketItems fuel ('-' :: hi :: more) (.byte lo :: acc) false
          else
            let (hi, more) := match hi, more with
              | '[', '.' :: d :: '.' :: ']' :: m => (d, m)
              | '[', '=' :: d :: '=' :: ']' :: m => (d, m)
              | _, _ => (hi, more)
            if hi < lo then .error "Invalid range end"
            else bracketItems fuel more (.range lo hi :: acc) false
        | _ => bracketItems fuel after (.byte lo :: acc) false

/-- A bracket expression after its `[`. -/
def bracket (r : Reading) : Parsed Pattern :=
  let (negated, rest) := match r.rest with
    | '^' :: more => (true, more)
    | cs => (false, cs)
  match bracketItems (rest.length + 1) rest [] true with
  | .ok (items, after) => .ok (.bracket negated items, { r with rest := after })
  | .error e => .error e

/-- A count of an interval, and the text after it. -/
def intervalNumber (cs : List Char) : Option Nat × List Char :=
  let ds := cs.takeWhile Char.isDigit
  if ds.isEmpty then (none, cs) else (some (String.ofList ds).toNat!, cs.drop ds.length)

/-- The bounds of an interval after its `{`, up to its close (`}` or `\}`), or none when the
text does not make one. -/
def interval (extended : Bool) (cs : List Char) : Option ((Nat × Option Nat) × List Char) :=
  let (lo, rest) := intervalNumber cs
  let closeAt (t : List Char) : Option (List Char) :=
    if extended then (match t with | '}' :: after => some after | _ => none)
    else (match t with | '\\' :: '}' :: after => some after | _ => none)
  match rest with
  | ',' :: more =>
    let (hi, more) := intervalNumber more
    (closeAt more).map fun after => ((lo.getD 0, hi), after)
  | _ =>
    match lo with
    | some n => (closeAt rest).map fun after => ((n, some n), after)
    | none => none

/-- Whether the text left ends a branch of a basic expression: the end, `\)` or `\|`. -/
def endsBranch (cs : List Char) : Bool :=
  match cs with
  | [] => true
  | '\\' :: ')' :: _ => true
  | '\\' :: '|' :: _ => true
  | _ => false

/-- Whether an interval's bounds run backwards. -/
def backwards (lo : Nat) (hi : Option Nat) : Bool :=
  match hi with
  | some h => h < lo
  | none => false

/-- Whether a pattern is an anchor, which matches no byte. -/
def Pattern.isAnchor : Pattern → Bool
  | .anchor _ => true
  | _ => false

/-- The repeat operators at the start of a text of an extended expression, as the warnings
name them (`{...}` for an interval), and the text after them. -/
def leadingOperators (extended : Bool) (cs : List Char) : List String × List Char :=
  let rec go : Nat → List Char → List String × List Char
    | 0, cs => ([], cs)
    | fuel + 1, cs =>
      match cs with
      | c :: rest =>
        if extended && (c == '*' || c == '+' || c == '?') then
          let (ops, after) := go fuel rest
          (String.singleton c :: ops, after)
        else if extended && c == '{' then
          match interval true rest with
          | some (_, after) =>
            let (ops, after) := go fuel after
            ("{...}" :: ops, after)
          | none => ([], cs)
        else ([], cs)
      | [] => ([], [])
  go (cs.length + 1) cs

mutual

/-- Alternatives separated by `|` (`\|` in a basic expression). -/
def parseAlternatives (extended : Bool) : Nat → Reading → Parsed Pattern
  | 0, _ => .error "Regular expression too big"
  | fuel + 1, r =>
    match parseBranch extended fuel r [] with
    | .error e => .error e
    | .ok (first, r) =>
      match r.rest with
      | '|' :: more =>
        if extended then
          match parseAlternatives extended fuel { r with rest := more } with
          | .ok (.alt more, r) => .ok (.alt (first :: more), r)
          | .ok (other, r) => .ok (.alt [first, other], r)
          | .error e => .error e
        else .ok (first, r)
      | '\\' :: '|' :: more =>
        if !extended then
          match parseAlternatives extended fuel { r with rest := more } with
          | .ok (.alt more, r) => .ok (.alt (first :: more), r)
          | .ok (other, r) => .ok (.alt [first, other], r)
          | .error e => .error e
        else .ok (first, r)
      | _ => .ok (first, r)

/-- The pieces of a branch, up to `|`, a group's close, or the end. -/
def parseBranch (extended : Bool) : Nat → Reading → List Pattern → Parsed Pattern
  | 0, _, _ => .error "Regular expression too big"
  | fuel + 1, r, acc =>
    let stop := match r.rest with
      | [] => true
      | '|' :: _ => extended
      | ')' :: _ => extended && r.depth > 0
      | '\\' :: '|' :: _ => !extended
      | '\\' :: ')' :: _ => !extended && r.depth > 0
      | _ => false
    if stop then .ok (.seq acc.reverse, r)
    else
      match parseAtom extended fuel r acc.isEmpty with
      | .error e => .error e
      | .ok (atom, r) =>
        -- an anchor takes no repeat: what follows it starts afresh
        if atom.isAnchor then parseBranch extended fuel r (atom :: acc)
        else
        match parseRepeats extended fuel atom r with
        | .error e => .error e
        | .ok (piece, r) => parseBranch extended fuel r (piece :: acc)

/-- The repeats after an atom: `*`, and `+`, `?` and intervals as the form writes them. -/
def parseRepeats (extended : Bool) : Nat → Pattern → Reading → Parsed Pattern
  | 0, p, r => .ok (p, r)
  | fuel + 1, p, r =>
    let again (q : Pattern) (rest : List Char) := parseRepeats extended fuel q { r with rest }
    match r.rest with
    | '*' :: more => again (.repeat p 0 none) more
    | '+' :: more => if extended then again (.repeat p 1 none) more else .ok (p, r)
    | '?' :: more => if extended then again (.repeat p 0 (some 1)) more else .ok (p, r)
    | '\\' :: '+' :: more => if extended then .ok (p, r) else again (.repeat p 1 none) more
    | '\\' :: '?' :: more => if extended then .ok (p, r) else again (.repeat p 0 (some 1)) more
    | '{' :: more =>
      if extended then
        match interval true more with
        | some ((lo, hi), after) =>
          if backwards lo hi then .error "Invalid content of \\\x7b\\\x7d"
          else again (.repeat p lo hi) after
        | none => .ok (p, r)
      else .ok (p, r)
    | '\\' :: '{' :: more =>
      if extended then .ok (p, r)
      else
        match interval false more with
        | some ((lo, hi), after) =>
          if backwards lo hi then .error "Invalid content of \\\x7b\\\x7d"
          else again (.repeat p lo hi) after
        | none => .error "Invalid content of \\\x7b\\\x7d"
    | _ => .ok (p, r)

/-- One atom; `first` when it starts a branch, where `^` anchors in a basic expression. A
repeat operator met here has no atom before it, only anchors if anything: it is a plain byte
in a basic expression, and in an extended one it repeats the empty expression. -/
def parseAtom (extended : Bool) : Nat → Reading → Bool → Parsed Pattern
  | 0, _, _ => .error "Regular expression too big"
  | fuel + 1, r, first =>
    let plain (c : Char) (rest : List Char) : Parsed Pattern := .ok (.byte c, { r with rest })
    -- a group after its opening; its number is the count of groups opened before it, plus one
    let group (rest : List Char) : Parsed Pattern :=
      let index := r.groups + 1
      match parseAlternatives extended fuel { rest, groups := index, depth := r.depth + 1 } with
      | .error e => .error e
      | .ok (body, r') =>
        let closed := if extended then
            (match r'.rest with | ')' :: after => some after | _ => none)
          else (match r'.rest with | '\\' :: ')' :: after => some after | _ => none)
        match closed with
        | some after => .ok (.group index body, { r' with rest := after, depth := r.depth })
        | none => .error "Unmatched ( or \\("
    -- a repeat with nothing before it in an extended expression; a close right after the
    -- operators is then a plain byte, and the group it was to close stays open
    let emptyRepeat : Parsed Pattern :=
      if r.depth > 0 && (leadingOperators true r.rest).2.head? == some ')' then
        .error "Unmatched ( or \\("
      else .ok (.seq [], r)
    match r.rest with
    | [] => .error "Regular expression too big"
    | '.' :: rest => .ok (.any, { r with rest })
    | '*' :: rest => if extended then emptyRepeat else plain '*' rest
    | '+' :: rest => if extended then emptyRepeat else plain '+' rest
    | '?' :: rest => if extended then emptyRepeat else plain '?' rest
    | '{' :: rest =>
      if extended && (interval true rest).isSome then emptyRepeat else plain '{' rest
    | '[' :: rest => bracket { r with rest }
    | '^' :: rest =>
      if extended || first then .ok (.anchor .lineStart, { r with rest }) else plain '^' rest
    | '$' :: rest =>
      if extended || endsBranch rest then .ok (.anchor .lineEnd, { r with rest }) else plain '$' rest
    | '(' :: rest =>
      if extended then group rest else plain '(' rest
    | ')' :: rest => plain ')' rest
    | '|' :: rest => plain '|' rest
    | '\\' :: rest =>
      match rest with
      | [] => .error "Trailing backslash"
      | '(' :: more => if extended then plain '(' more else group more
      | ')' :: more =>
        if extended then plain ')' more else .error "Unmatched ) or \\)"
      | '{' :: more => plain '{' more
      | 'w' :: more => .ok (.bracket false [.named "alnum", .byte '_'], { r with rest := more })
      | 'W' :: more => .ok (.bracket true [.named "alnum", .byte '_'], { r with rest := more })
      | 's' :: more => .ok (.bracket false [.named "space"], { r with rest := more })
      | 'S' :: more => .ok (.bracket true [.named "space"], { r with rest := more })
      | 'b' :: more => .ok (.anchor .wordBoundary, { r with rest := more })
      | 'B' :: more => .ok (.anchor .notWordBoundary, { r with rest := more })
      | '<' :: more => .ok (.anchor .wordStart, { r with rest := more })
      | '>' :: more => .ok (.anchor .wordEnd, { r with rest := more })
      | 'n' :: more => plain '\n' more
      | 't' :: more => plain '\t' more
      | d :: more =>
        if '1' ≤ d && d ≤ '9' then
          let n := d.toNat - 48
          if n > r.groups then .error "Invalid back reference"
          else .ok (.backref n, { r with rest := more })
        else plain d more
    | c :: rest => plain c rest

end

-- ============================================================================
-- Diagnostics
-- ============================================================================

/-- The text of a bracket's class, equivalence or collating element after its opening
`[:`, `[=` or `[.`, and the text after its close. -/
def closeOf (k : Char) : List Char → Option (List Char × List Char)
  | [] => none
  | [_] => none
  | c :: tl@(d :: rest) =>
    if c == k && d == ']' then some ([], rest)
    else (closeOf k tl).map fun (a, b) => (c :: a, b)

/-- The items of a bracket expression after its `[` and an optional `^`, as written, and the
text after its `]`; none when it is not closed. -/
def bracketBody (cs : List Char) : Option (List Char × List Char) :=
  let (lead, cs) := match cs with
    | ']' :: rest => ([']'], rest)
    | _ => ([], cs)
  let rec go : Nat → List Char → Option (List Char × List Char)
    | 0, _ => none
    | _ + 1, [] => none
    | _ + 1, ']' :: rest => some ([], rest)
    | fuel + 1, '[' :: k :: rest =>
      if k == ':' || k == '.' || k == '=' then
        match closeOf k rest with
        | some (inner, after) =>
          (go fuel after).map fun (a, b) => ('[' :: k :: inner ++ [k, ']'] ++ a, b)
        | none => none
      else (go fuel (k :: rest)).map fun (a, b) => ('[' :: a, b)
    | fuel + 1, c :: rest => (go fuel rest).map fun (a, b) => (c :: a, b)
  (go (cs.length + 1) cs).map fun (a, b) => (lead ++ a, b)

/-- The text after a bracket expression's `[`, past the expression; none when it is not
closed. -/
def afterBracket (cs : List Char) : Option (List Char) :=
  let cs := match cs with
    | '^' :: rest => rest
    | _ => cs
  (bracketBody cs).map (·.2)

/-- Whether an expression has a bracket expression that looks like a class written without
its outer brackets, `[:alpha:]`: its items start and end with `:`, hold something else, and
hold no range or class. -/
def hasBareClass (cs : List Char) : Bool :=
  let rec go : Nat → List Char → Bool
    | 0, _ => false
    | _ + 1, [] => false
    | fuel + 1, '\\' :: rest => go fuel (rest.drop 1)
    | fuel + 1, '[' :: rest =>
      let body := match rest with
        | '^' :: more => more
        | _ => rest
      match bracketBody body with
      | some (items, after) =>
        (items.head? == some ':' && items.getLast? == some ':' && items.any (· != ':') &&
          !items.contains '-' && !items.contains '[') || go fuel after
      | none => false
    | fuel + 1, _ :: rest => go fuel rest
  go (cs.length + 1) cs

/-- The repeat operators of an extended expression with nothing but anchors before them in
their branch, named as the warnings about them name them (`{...}` for an interval). -/
def strayRepeats (cs : List Char) : List String :=
  let rec go : Nat → List Char → Bool → List String
    | 0, _, _ => []
    | _ + 1, [], _ => []
    | fuel + 1, c :: rest, start =>
      match c, rest with
      | '\\', d :: more => go fuel more (start && "<>bB".toList.contains d)
      | '\\', [] => []
      | '[', _ =>
        match afterBracket rest with
        | some after => go fuel after false
        | none => []
      | '(', _ => go fuel rest true
      | '|', _ => go fuel rest true
      | '^', _ => go fuel rest start
      | '$', _ => go fuel rest start
      | '{', _ =>
        match interval true rest with
        | some (_, after) => (if start then ["{...}"] else []) ++ go fuel after start
        | none => go fuel rest false
      | _, _ =>
        if c == '*' || c == '+' || c == '?' then
          (if start then [String.singleton c] else []) ++ go fuel rest start
        else go fuel rest false
  go (cs.length + 1) cs true

/-- A compiled expression: the pattern, how many groups it has, and whether case is ignored. -/
structure Compiled where
  pattern : Pattern
  groups : Nat
  icase : Bool
  deriving Repr, Inhabited

/-- Compile an expression, basic or `extended`; the complaint is the one the tools print. -/
def compile (extended icase : Bool) (text : List Char) : Except String Compiled :=
  match parseAlternatives extended (4 * text.length + 8) { rest := text, groups := 0 } with
  | .error e => .error e
  | .ok (p, r) =>
    match r.rest with
    | [] => .ok ⟨p, r.groups, icase⟩
    | ')' :: _ => .error "Unmatched ) or \\)"
    | _ => .error "Unmatched ) or \\)"

-- ============================================================================
-- Matching
-- ============================================================================

/-- What each group matched: its number and its start and end. The latest comes first. -/
abbrev Captures := List (Nat × Nat × Nat)

/-- The span a group matched, if it took part. -/
def Captures.get? (cs : Captures) (n : Nat) : Option (Nat × Nat) :=
  (cs.find? (·.1 == n)).map (·.2)

/-- Whether an anchor holds at a position of a subject. -/
def Anchor.holds (s : Array Char) (pos : Nat) : Anchor → Bool
  | .lineStart => pos == 0
  | .lineEnd => pos == s.size
  | a =>
    let before := pos > 0 && isWordByte (s.getD (pos - 1) ' ')
    let after := pos < s.size && isWordByte (s.getD pos ' ')
    match a with
    | .wordBoundary => before != after
    | .notWordBoundary => before == after
    | .wordStart => !before && after
    | .wordEnd => before && !after
    | _ => false

/-- The ways a pattern matches at a position, each with its end and captures, in the order
they are tried; `k` continues each. -/
def matchHere (s : Array Char) (icase : Bool) :
    Nat → Pattern → Nat → Captures → (Nat → Captures → List (Nat × Captures)) → List (Nat × Captures)
  | 0, _, _, _, _ => []
  | fuel + 1, p, pos, caps, k =>
    match p with
    | .byte c =>
      if pos < s.size && fold icase (s.getD pos ' ') == fold icase c then k (pos + 1) caps else []
    | .any => if pos < s.size then k (pos + 1) caps else []
    | .bracket negated items =>
      if pos < s.size then
        let c := s.getD pos ' '
        if (items.any (ClassItem.holds icase c)) != negated then k (pos + 1) caps else []
      else []
    | .anchor a => if a.holds s pos then k pos caps else []
    | .group n body =>
      matchHere s icase fuel body pos caps fun e cs => k e ((n, pos, e) :: cs)
    | .backref n =>
      match caps.get? n with
      | some (a, b) =>
        let len := b - a
        let same := (List.range len).all fun i =>
          pos + i < s.size && fold icase (s.getD (a + i) ' ') == fold icase (s.getD (pos + i) ' ')
        if same then k (pos + len) caps else []
      | none => []
    | .repeat body least most =>
      let more :=
        if most == some 0 then []
        else matchHere s icase fuel body pos caps fun e cs =>
          if e == pos && least == 0 then []
          else matchHere s icase fuel (.repeat body (least - 1) (most.map (· - 1))) e cs k
      let stop := if least == 0 then k pos caps else []
      more ++ stop
    | .seq [] => k pos caps
    | .seq (q :: qs) =>
      matchHere s icase fuel q pos caps fun e cs => matchHere s icase fuel (.seq qs) e cs k
    | .alt choices => choices.flatMap fun q => matchHere s icase fuel q pos caps k

/-- A match: where it starts and ends, and what each group matched. -/
structure Match where
  start : Nat
  stop : Nat
  captures : Captures
  deriving Repr, Inhabited

/-- The ways a compiled expression matches at a position, each with its end and captures, in
the order they are tried. -/
def Compiled.ways (r : Compiled) (s : Array Char) (pos : Nat) : List (Nat × Captures) :=
  let fuel := 16 * (s.size + 4) * (r.groups + 4) + 64
  matchHere s r.icase fuel r.pattern pos [] fun e cs => [(e, cs)]

/-- The longest way a pattern matches at a position, the first tried of the longest. -/
def Compiled.matchAt (r : Compiled) (s : Array Char) (pos : Nat) : Option Match :=
  match r.ways s pos with
  | [] => none
  | w :: rest =>
    let best := rest.foldl (fun b w => if w.1 > b.1 then w else b) w
    some ⟨pos, best.1, best.2⟩

/-- The leftmost match starting at or after a position, the longest there. -/
def Compiled.search (r : Compiled) (s : Array Char) (from_ : Nat) : Option Match :=
  ((List.range (s.size + 1 - from_)).map (· + from_)).findSome? fun pos => r.matchAt s pos

/-- Whether an expression matches anywhere in a text. -/
def Compiled.matches (r : Compiled) (text : List Char) : Bool := (r.search text.toArray 0).isSome

/-- The text a group matched in a subject, empty when it took no part. -/
def Match.group (m : Match) (s : Array Char) (n : Nat) : List Char :=
  if n == 0 then ((s.toList.drop m.start).take (m.stop - m.start))
  else match m.captures.get? n with
    | some (a, b) => (s.toList.drop a).take (b - a)
    | none => []

/-- Keeping the first of the longest along a list keeps one of the list, as long as any. -/
theorem foldl_longest (rest : List (Nat × Captures)) (w : Nat × Captures) :
    rest.foldl (fun b w => if w.1 > b.1 then w else b) w ∈ w :: rest ∧
      ∀ x ∈ w :: rest, x.1 ≤ (rest.foldl (fun b w => if w.1 > b.1 then w else b) w).1 := by
  induction rest generalizing w with
  | nil => simp
  | cons x rest ih =>
    simp only [List.foldl_cons]
    obtain ⟨hmem, hle⟩ := ih (if x.1 > w.1 then x else w)
    have hkept : w.1 ≤ (if x.1 > w.1 then x else w).1 ∧ x.1 ≤ (if x.1 > w.1 then x else w).1 := by
      split <;> omega
    refine ⟨?_, fun y hy => ?_⟩
    · rcases List.mem_cons.mp hmem with hb | hb
      · rw [hb]
        split <;> simp
      · simp [hb]
    · have hfirst := hle _ List.mem_cons_self
      rcases List.mem_cons.mp hy with rfl | hy
      · omega
      rcases List.mem_cons.mp hy with rfl | hy
      · omega
      · exact hle y (List.mem_cons_of_mem _ hy)

theorem matchAt_eq_none_iff (r : Compiled) (s : Array Char) (pos : Nat) :
    r.matchAt s pos = none ↔ r.ways s pos = [] := by
  cases h : r.ways s pos <;> simp [Compiled.matchAt, h]

/-- A match at a position is one of the ways the expression matches there, and the longest. -/
theorem matchAt_longest {r : Compiled} {s : Array Char} {pos : Nat} {m : Match}
    (h : r.matchAt s pos = some m) :
    m.start = pos ∧ (m.stop, m.captures) ∈ r.ways s pos ∧ ∀ w ∈ r.ways s pos, w.1 ≤ m.stop := by
  unfold Compiled.matchAt at h
  split at h
  · cases h
  · rename_i w rest hways
    cases h
    rw [hways]
    exact ⟨rfl, (foldl_longest rest w).1, (foldl_longest rest w).2⟩

theorem findSome?_range'_eq_some {β : Type} {f : Nat → Option β} {b : β} :
    ∀ {a n : Nat}, (List.range' a n).findSome? f = some b ↔
      ∃ p, a ≤ p ∧ p < a + n ∧ f p = some b ∧ ∀ q, a ≤ q → q < p → f q = none
  | a, 0 => by
    simp only [List.range'_zero, List.findSome?_nil, reduceCtorEq, false_iff]
    rintro ⟨p, h1, h2, -⟩
    omega
  | a, n + 1 => by
    rw [List.range'_succ, List.findSome?_cons]
    cases hfa : f a with
    | some b' =>
      constructor
      · rintro ⟨⟩
        exact ⟨a, Nat.le_refl a, by omega, hfa, fun q h1 h2 => absurd h2 (by omega)⟩
      · rintro ⟨p, hap, -, hp, hbefore⟩
        have hpa : p = a := by
          refine Nat.le_antisymm (Nat.not_lt.mp fun hlt => ?_) hap
          simp [hbefore a (Nat.le_refl a) hlt] at hfa
        subst hpa
        rw [hfa] at hp
        exact hp
    | none =>
      rw [findSome?_range'_eq_some]
      constructor
      · rintro ⟨p, hap, hpn, hp, hbefore⟩
        refine ⟨p, by omega, by omega, hp, fun q h1 h2 => ?_⟩
        by_cases hq : q = a
        · exact hq ▸ hfa
        · exact hbefore q (by omega) h2
      · rintro ⟨p, hap, hpn, hp, hbefore⟩
        have hpa : p ≠ a := by
          rintro rfl
          rw [hfa] at hp
          cases hp
        exact ⟨p, by omega, by omega, hp, fun q h1 h2 => hbefore q (by omega) h2⟩

/-- A search finds the leftmost position, from where it starts, at which the expression matches,
and there the longest match. -/
theorem search_eq_some_iff (r : Compiled) (s : Array Char) (from_ : Nat) (m : Match) :
    r.search s from_ = some m ↔
      from_ ≤ m.start ∧ m.start ≤ s.size ∧ r.matchAt s m.start = some m ∧
        ∀ pos, from_ ≤ pos → pos < m.start → r.matchAt s pos = none := by
  have hrange : (List.range (s.size + 1 - from_)).map (· + from_) =
      List.range' from_ (s.size + 1 - from_) := by
    simp only [List.range'_eq_map_range, Nat.add_comm]
  unfold Compiled.search
  rw [hrange, findSome?_range'_eq_some]
  constructor
  · rintro ⟨p, hfp, hps, hp, hbefore⟩
    obtain rfl := (matchAt_longest hp).1
    exact ⟨hfp, by omega, hp, hbefore⟩
  · rintro ⟨hfs, hss, hm, hbefore⟩
    exact ⟨m.start, hfs, by omega, hm, hbefore⟩

example : ((compile false false "c".toList).toOption.bind fun r => (r.search "abcc".toList.toArray 0).map
    fun m => (m.start, m.stop)) = some (2, 3) := by decide +kernel

example : ((compile false false "a*".toList).toOption.bind fun r => (r.search "bc".toList.toArray 0).map
    fun m => (m.start, m.stop)) = some (0, 0) := by decide +kernel

end BuildRecipe.Regex
