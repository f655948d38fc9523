import BuildRecipe.Shell.Syntax
/-!
# Reading shell scripts

The reader takes a script one complete command line at a time: the and-or lists up to the
newline that ends a line outside every compound command. A line is read whole before any of
it runs, so a syntax error anywhere in it stops the line before it starts, and an alias defined
on one line applies from the next.

* Words are read character by character. Outside quotes a word ends at a blank, a newline or an
  operator character; `\` quotes the next byte and `\` with a newline joins lines; `'...'`
  quotes everything; inside `"..."` only `$`, backquote, `"`, `\` and a newline after `\` keep
  a meaning. `$name`, `${...}`, `$(...)`, `$((...))` and backquotes are read as expansions, a
  command substitution's body read as commands, so a syntax error inside it is an error of the
  line.
* A reserved word is recognised only where a command may start (and `in`, `do`, `esac` where the
  grammar expects them), and only when it is written without quotes. An alias is replaced by its
  text at the start of a command; when that text ends in a blank, the next word is looked up
  too.
* A here-document's body is the lines after the line of its redirection, up to the line that is
  its marker (leading tabs dropped with `<<-`). With a quoted marker the body is taken as it
  is; otherwise it is read like text inside double quotes.

The faults are the shell's syntax errors, each at the line where it was found: a token that
cannot stand where it is (`"fi" unexpected`, with what was expected where the grammar
expects one token: `end of file unexpected (expecting ")")`), `Bad for loop variable`,
`Bad function name`, `Missing '}'`, `Missing '))'`, `Unterminated quoted string` and
`EOF in backquote substitution`.

Main statement: a here-document's body is its lines up to the line that is its marker, and
reading goes on after that line (`hereLines_lines`).
-/

namespace BuildRecipe.Shell

/-- The character that marks, in the input, where the text of an alias ends. Input bytes are
below 256, so it is no byte. -/
def aliasEnd : Char := Char.ofNat 0x100

/-- A here-document waiting for its body: its number, its marker, whether leading tabs are
dropped, and whether the body is expanded. -/
structure HereRequest where
  id : Nat
  marker : Bytes
  stripTabs : Bool
  expand : Bool

/-- What the reader has left to read and what it knows. -/
structure Reader where
  input : List Char
  line : Nat := 1
  /-- The here-documents whose bodies follow the next newline. -/
  pending : List HereRequest := []
  /-- The bodies read so far, by number. -/
  bodies : List (Nat × Word) := []
  nextHere : Nat := 0
  aliases : List (Bytes × Bytes) := []
  /-- The aliases whose text is being read, innermost first, each with whether its text ends
  in a blank. -/
  expanding : List (Bytes × Bool) := []
  /-- An alias text ending in a blank was just passed: the next word is looked up too. -/
  aliasNext : Bool := false
  /-- A token read and given back. -/
  pushed : Option Token := none

/-- A syntax error and the line where it was found. -/
structure SyntaxFault where
  message : String
  line : Nat
  deriving DecidableEq, Repr

/-- A reading step: the value and the reader after it, or a syntax error. -/
abbrev Reading (α : Type) := Except SyntaxFault (α × Reader)

/-- What a reading step looks up in a word it reads: reserved words, aliases, and whether
newlines before it are passed. -/
structure Check where
  newlines : Bool := false
  keywords : Bool := false
  aliases : Bool := false

namespace Check

/-- Where a command starts: newlines are passed, reserved words and aliases recognised. -/
def all : Check := ⟨true, true, true⟩

/-- Reserved words and aliases, newlines not passed. -/
def words : Check := ⟨false, true, true⟩

/-- Nothing is looked up. -/
def none : Check := {}

end Check

/-- How a part of a word is read: outside quotes, as a here-document marker (where `$` and
backquotes are plain), inside double quotes, as the word of a `${...}` (inside double quotes or
not), inside `$((...))`, or as a here-document body. -/
inductive Mode where
  | base
  | marker
  | double
  | param (inQuotes : Bool)
  | arith
  | hereBody
  deriving DecidableEq, Repr

namespace Mode

/-- Whether plain text read in this mode is quoted. -/
def quotes : Mode → Bool
  | base | marker | param false => false
  | _ => true

/-- Whether the mode reads like text inside double quotes. -/
def doubleLike : Mode → Bool
  | double | param true | arith | hereBody => true
  | _ => false

end Mode

namespace Reader

/-- A syntax error at the reader's line. -/
def fault (r : Reader) (message : String) : SyntaxFault := ⟨message, r.line⟩

/-- The reader past the end of an alias's text. -/
def popAlias (r : Reader) : Reader :=
  match r.expanding with
  | (_, blank) :: rest => { r with expanding := rest, aliasNext := r.aliasNext || blank }
  | [] => r

/-- The reader with a token given back. -/
def push (r : Reader) (t : Token) : Reader := { r with pushed := some t }

/-- The reader past joined lines (`\` and a newline) at the front of the input. -/
def eatJoins : Nat → Reader → Reader
  | 0, r => r
  | n + 1, r =>
    match r.input with
    | '\\' :: '\n' :: rest => eatJoins n { r with input := rest, line := r.line + 1 }
    | _ => r

/-- The reader past joined lines, as many as there are. -/
def joined (r : Reader) : Reader := r.eatJoins r.input.length

end Reader

/-- The error of a token that cannot stand where it is. -/
def unexpected (r : Reader) (t : Token) (expecting : Option Token) : SyntaxFault :=
  r.fault ("Syntax error: " ++ t.describe ++ " unexpected" ++
    match expecting with
    | some e => " (expecting " ++ e.describe ++ ")"
    | none => "")

/-- A syntax error with a fixed message. -/
def syntaxError (r : Reader) (message : String) : SyntaxFault := r.fault ("Syntax error: " ++ message)

/-- Text added to a word being read, whose parts are kept last first; text joins the part
before it when both are quoted or both are not. -/
def addText (acc : List Part) (quoted : Bool) (t : Bytes) : List Part :=
  match acc, quoted with
  | .literal s :: rest, false => .literal (s ++ t) :: rest
  | .quoted s :: rest, true => .quoted (s ++ t) :: rest
  | _, false => .literal t :: acc
  | _, true => .quoted t :: acc

/-- Parts added to a word being read. -/
def addParts (acc : List Part) (ps : Word) : List Part :=
  ps.foldl (fun acc p =>
    match p with
    | .literal s => addText acc false s
    | .quoted s => addText acc true s
    | other => other :: acc) acc

/-- The text of a here-document marker: the word with its quoting taken away. -/
def markerText (w : Word) : Bytes :=
  String.join (w.map fun p =>
    match p with
    | .literal s => s
    | .quoted s => s
    | _ => "")

/-- Whether a byte ends a word outside quotes. -/
def isDelimiter (c : Char) : Bool :=
  c == ' ' || c == '\t' || c == '\n' || c == ';' || c == '&' || c == '|' || c == '(' ||
    c == ')' || c == '<' || c == '>'

/-- Whether a byte names a special parameter. -/
def isSpecialParam (c : Char) : Bool :=
  c == '#' || c == '?' || c == '$' || c == '!' || c == '-' || c == '*' || c == '@'

/-- The special built-ins, which a function may not be named after. -/
def specialBuiltins : List Bytes :=
  [".", ":", "break", "continue", "eval", "exec", "exit", "export", "readonly", "return", "set",
    "shift", "times", "trap", "unset"]

/-- The descriptor a redirection works on when none is written. -/
def RedirOp.defaultFd : RedirOp → Nat
  | .plain .input | .plain .readWrite | .plain .dupInput | .hereDoc _ => 0
  | _ => 1

/-- A line of input: its characters, the rest after its newline, and whether it had one. -/
def takeLine (cs : List Char) : List Char × List Char × Bool :=
  let line := cs.takeWhile (· != '\n')
  let rest := cs.drop line.length
  match rest with
  | _ :: after => (line, after, true)
  | [] => (line, [], false)

/-- The lines of a here-document body up to its marker, each with its newline, the input
after the marker's line, and how many lines were read. -/
def hereLines (marker : List Char) (strip : Bool) :
    Nat → List Char → List Char × List Char × Nat
  | 0, cs => ([], cs, 0)
  | fuel + 1, cs =>
    if cs.isEmpty then ([], [], 0)
    else
      let (line, rest, hadNewline) := takeLine cs
      let line := (line.filter (· != aliasEnd))
      let line := if strip then line.dropWhile (· == '\t') else line
      if line == marker then ([], rest, if hadNewline then 1 else 0)
      else
        let (body, after, n) := hereLines marker strip fuel rest
        (line ++ ['\n'] ++ body, after, n + (if hadNewline then 1 else 0))

/-- The parts of a word written `$name` or `$1`: the name read from the front. -/
def readName (cs : List Char) : List Char × List Char :=
  (cs.takeWhile isNameChar, cs.dropWhile isNameChar)

/-- The operator of a redirection after its first character `<` or `>`, and the fd written
before it. -/
def readRedirOp (fd : Option Nat) (c : Char) (r : Reader) : Token × Reader :=
  let r := r.joined
  let op (o : RedirOp) (n : Nat) : Token × Reader := (.redirect fd o, { r with input := r.input.drop n })
  if c == '>' then
    match r.input with
    | '>' :: _ => op (.plain .append) 1
    | '|' :: _ => op (.plain .clobber) 1
    | '&' :: _ => op (.plain .dupOutput) 1
    | _ => op (.plain .output) 0
  else
    match r.input with
    | '<' :: '-' :: _ => op (.hereDoc true) 2
    | '<' :: _ => op (.hereDoc false) 1
    | '>' :: _ => op (.plain .readWrite) 1
    | '&' :: _ => op (.plain .dupInput) 1
    | _ => op (.plain .input) 0

mutual

/-- Read the parts of a word in a mode up to where the mode ends: a delimiter outside quotes,
the closing `"`, the closing brace of `${`, the closing `))`, or the end of a here-document
body. The parts so far are `acc`, last first; `depth` counts the open parentheses inside
`$((`; `quoted` tells whether any quoting was seen. -/
def readParts : Nat → Mode → Nat → List Part → Bool → Reader → Reading (Word × Bool)
  | 0, _, _, _, _, r => .error (r.fault "Syntax error: nested too deeply")
  | fuel + 1, mode, depth, acc, quoted, r =>
    let done (r : Reader) : Reading (Word × Bool) := .ok ((acc.reverse, quoted), r)
    let more (acc : List Part) (q : Bool) (r : Reader) := readParts fuel mode depth acc q r
    match r.input with
    | [] =>
      match mode with
      | .base | .marker | .hereBody => done r
      | .double | .param true => .error (syntaxError r "Unterminated quoted string")
      | .param false => .error (syntaxError r "Missing '\x7d'")
      | .arith => .error (syntaxError r "Missing '))'")
    | c :: rest =>
      let r1 := { r with input := rest }
      if c == aliasEnd then
        if mode == .base || mode == .marker then done r
        else more acc quoted r1.popAlias
      else if (mode == .base || mode == .marker) && isDelimiter c then done r
      else if mode == .double && c == '"' then done r1
      else if (match mode with | .param _ => c == '}' | _ => false) then done r1
      else if mode == .arith && c == '(' then readParts fuel mode (depth + 1) (addText acc true "(") quoted r1
      else if mode == .arith && c == ')' then
        if depth > 0 then readParts fuel mode (depth - 1) (addText acc true ")") quoted r1
        else match r1.joined.input with
          | ')' :: after => done { r1.joined with input := after }
          | _ => more (addText acc true ")") quoted r1
      else if c == '\\' then
        match rest with
        | '\n' :: after => more acc quoted { r with input := after, line := r.line + 1 }
        | [] => more (addText acc true "\\") quoted r1
        | d :: after =>
          let r2 := { r with input := after }
          if mode.doubleLike then
            let keep := d == '\\' || d == '`' || d == '$' ||
              (d == '"' && mode != .hereBody) ||
              (d == '}' && match mode with | .param _ => true | _ => false)
            let text := if keep then String.singleton d else String.ofList ['\\', d]
            more (addText acc true text) true (if d == '\n' then { r2 with line := r2.line + 1 } else r2)
          else more (addText acc true (String.singleton d)) true r2
      else if c == '\'' && !mode.doubleLike then
        let body := rest.takeWhile (· != '\'')
        match rest.drop body.length with
        | _ :: after =>
          let text := String.ofList (body.filter (· != aliasEnd))
          more (addText acc true text) true
            { r with input := after, line := r.line + (body.filter (· == '\n')).length }
        | [] =>
          .error (syntaxError { r with line := r.line + (body.filter (· == '\n')).length }
            "Unterminated quoted string")
      else if c == '"' && mode != .hereBody then
        match readParts fuel .double 0 [] true r1 with
        | .ok ((ps, _), r2) =>
          let acc := if ps.isEmpty then addText acc true "" else addParts acc ps
          more acc true r2
        | .error e => .error e
      else if c == '$' && mode != .marker then
        match readDollar fuel mode.quotes r1 with
        | .ok (p, r2) => more (addParts acc [p]) quoted r2
        | .error e => .error e
      else if c == '`' && mode != .marker then
        match readBackquote fuel mode.quotes r1 with
        | .ok (p, r2) => more (addParts acc [p]) quoted r2
        | .error e => .error e
      else if c == '\n' then more (addText acc mode.quotes "\n") quoted { r1 with line := r.line + 1 }
      else more (addText acc mode.quotes (String.singleton c)) quoted r1

/-- Read what follows a `$`: a parameter, a command substitution or an arithmetic expansion;
a `$` before anything else is itself. -/
def readDollar : Nat → Bool → Reader → Reading Part
  | 0, _, r => .error (r.fault "Syntax error: nested too deeply")
  | fuel + 1, inQuotes, r =>
    let r := r.joined
    match r.input with
    | '(' :: rest =>
      let r2 := { r with input := rest }.joined
      match r2.input with
      | '(' :: after =>
        match readParts fuel .arith 0 [] false { r2 with input := after } with
        | .ok ((ps, _), r3) => .ok (.arith ps inQuotes, r3)
        | .error e => .error e
      | _ =>
        match parseList fuel false true Check.none [] r2 with
        | .ok ((body, _), r3) =>
          match readToken fuel Check.none r3 with
          | .ok (.rparen, r4) => .ok (.command body inQuotes, r4)
          | .ok (t, r4) => .error (unexpected r4 t (some .rparen))
          | .error e => .error e
        | .error e => .error e
    | '{' :: rest => readBraced fuel inQuotes { r with input := rest }
    | c :: rest =>
      if isNameStart c then
        let (name, after) := readName (c :: rest)
        .ok (.param (String.ofList name) .plain [] inQuotes, { r with input := after })
      else if c.isDigit || isSpecialParam c then
        .ok (.param (String.singleton c) .plain [] inQuotes, { r with input := rest })
      else .ok (if inQuotes then .quoted "$" else .literal "$", r)
    | [] => .ok (if inQuotes then .quoted "$" else .literal "$", r)

/-- Read a `${...}` after its opening brace. -/
def readBraced : Nat → Bool → Reader → Reading Part
  | 0, _, r => .error (r.fault "Syntax error: nested too deeply")
  | fuel + 1, inQuotes, r =>
    let r := r.joined
    -- the word of an operator, read up to the closing brace
    let withWord (name : Bytes) (op : ParamOp) (wordInQuotes : Bool) (r : Reader) : Reading Part :=
      match readParts fuel (.param wordInQuotes) 0 [] false r with
      | .ok ((w, _), r2) => .ok (.param name op w inQuotes, r2)
      | .error e => .error e
    -- what follows the name
    let afterName (name : Bytes) (r : Reader) : Reading Part :=
      let r := r.joined
      match r.input with
      | '}' :: rest => .ok (.param name .plain [] inQuotes, { r with input := rest })
      | ':' :: rest =>
        let r2 := { r with input := rest }.joined
        match r2.input with
        | '-' :: after => withWord name (.useDefault true) inQuotes { r2 with input := after }
        | '=' :: after => withWord name (.assignDefault true) inQuotes { r2 with input := after }
        | '?' :: after => withWord name (.errorIfUnset true) inQuotes { r2 with input := after }
        | '+' :: after => withWord name (.useAlternative true) inQuotes { r2 with input := after }
        | _ => withWord name .bad inQuotes r2
      | '-' :: rest => withWord name (.useDefault false) inQuotes { r with input := rest }
      | '=' :: rest => withWord name (.assignDefault false) inQuotes { r with input := rest }
      | '?' :: rest => withWord name (.errorIfUnset false) inQuotes { r with input := rest }
      | '+' :: rest => withWord name (.useAlternative false) inQuotes { r with input := rest }
      | '%' :: rest =>
        let r2 := { r with input := rest }.joined
        match r2.input with
        | '%' :: after => withWord name (.removeSuffix true) false { r2 with input := after }
        | _ => withWord name (.removeSuffix false) false r2
      | '#' :: rest =>
        let r2 := { r with input := rest }.joined
        match r2.input with
        | '#' :: after => withWord name (.removePrefix true) false { r2 with input := after }
        | _ => withWord name (.removePrefix false) false r2
      | _ => withWord name .bad inQuotes r
    -- a length `${#name}`
    let lengthOf (name : Bytes) (r : Reader) : Reading Part :=
      let r := r.joined
      match r.input with
      | '}' :: rest => .ok (.param name .length [] inQuotes, { r with input := rest })
      | _ => withWord name .bad inQuotes r
    match r.input with
    | '#' :: rest =>
      let r2 := { r with input := rest }.joined
      match r2.input with
      | c :: after =>
        if isNameStart c then
          let (name, after) := readName (c :: after)
          lengthOf (String.ofList name) { r2 with input := after }
        else if c.isDigit then
          let digits := (c :: after).takeWhile Char.isDigit
          lengthOf (String.ofList digits) { r2 with input := after.drop (digits.length - 1) }
        else if c == '}' then .ok (.param "#" .plain [] inQuotes, { r2 with input := after })
        else if isSpecialParam c &&
            (match ({ r2 with input := after }.joined).input with
              | '}' :: _ => true
              | _ => false) then
          lengthOf (String.singleton c) { r2 with input := after }
        else afterName "#" r2
      | [] => afterName "#" r2
    | c :: rest =>
      if isNameStart c then
        let (name, after) := readName (c :: rest)
        afterName (String.ofList name) { r with input := after }
      else if c.isDigit then
        let digits := (c :: rest).takeWhile Char.isDigit
        afterName (String.ofList digits) { r with input := rest.drop (digits.length - 1) }
      else if isSpecialParam c then afterName (String.singleton c) { r with input := rest }
      else withWord "" .bad inQuotes r
    | [] => withWord "" .bad inQuotes r

/-- Read a backquoted command substitution after its opening backquote: the text up to the
closing backquote, where `\` keeps its meaning only before `$`, a backquote, `\` and (inside
double quotes) `"`, read as commands. -/
def readBackquote : Nat → Bool → Reader → Reading Part
  | 0, _, r => .error (r.fault "Syntax error: nested too deeply")
  | fuel + 1, inQuotes, r =>
    let start := r.line
    match backquoteText r.input.length inQuotes [] r with
    | .error e => .error e
    | .ok (text, r2) =>
      let sub : Reader :=
        { input := text, line := start, nextHere := r2.nextHere, aliases := r2.aliases }
      match parseList fuel false true Check.none [] sub with
      | .ok ((body, _), s2) =>
        .ok (.command body inQuotes,
          { r2 with nextHere := s2.nextHere, bodies := r2.bodies ++ s2.bodies })
      | .error e => .error e

/-- The text of a backquoted substitution, up to and past its closing backquote. -/
def backquoteText : Nat → Bool → List Char → Reader → Reading (List Char)
  | 0, _, _, r => .error (syntaxError r "EOF in backquote substitution")
  | fuel + 1, inQuotes, acc, r =>
    match r.input with
    | [] => .error (syntaxError r "EOF in backquote substitution")
    | '`' :: rest => .ok (acc.reverse, { r with input := rest })
    | '\\' :: '\n' :: rest => backquoteText fuel inQuotes acc { r with input := rest, line := r.line + 1 }
    | '\\' :: d :: rest =>
      let acc := if d == '\\' || d == '`' || d == '$' || (inQuotes && d == '"') then d :: acc
        else d :: '\\' :: acc
      backquoteText fuel inQuotes acc
        { r with input := rest, line := if d == '\n' then r.line + 1 else r.line }
    | c :: rest =>
      if c == aliasEnd then backquoteText fuel inQuotes acc { r with input := rest }.popAlias
      else backquoteText fuel inQuotes (c :: acc)
        { r with input := rest, line := if c == '\n' then r.line + 1 else r.line }

/-- Read the next token as written, a word in marker mode when `marker`. -/
def lexToken : Nat → Bool → Reader → Reading Token
  | 0, _, r => .error (r.fault "Syntax error: nested too deeply")
  | fuel + 1, marker, r =>
    match r.pushed with
    | some t => .ok (t, { r with pushed := none })
    | none =>
      match r.input with
      | [] => .ok (.eof, r)
      | c :: rest =>
        let r1 := { r with input := rest }
        if c == ' ' || c == '\t' then lexToken fuel marker r1
        else if c == aliasEnd then lexToken fuel marker r1.popAlias
        else if c == '\\' && rest.head? == some '\n' then
          lexToken fuel marker { r with input := rest.drop 1, line := r.line + 1 }
        else if c == '#' then lexToken fuel marker { r with input := rest.dropWhile (· != '\n') }
        else if c == '\n' then .ok (.newline, { r1 with line := r.line + 1 })
        else if c == '&' then
          match r1.joined.input with
          | '&' :: after => .ok (.andIf, { r1.joined with input := after })
          | _ => .ok (.amp, r1)
        else if c == '|' then
          match r1.joined.input with
          | '|' :: after => .ok (.orIf, { r1.joined with input := after })
          | _ => .ok (.pipe, r1)
        else if c == ';' then
          match r1.joined.input with
          | ';' :: after => .ok (.dsemi, { r1.joined with input := after })
          | _ => .ok (.semi, r1)
        else if c == '(' then .ok (.lparen, r1)
        else if c == ')' then .ok (.rparen, r1)
        else if c == '<' || c == '>' then .ok (readRedirOp none c r1)
        else
          match readParts fuel (if marker then .marker else .base) 0 [] false r with
          | .error e => .error e
          | .ok ((parts, quoted), r2) =>
            let fd := match parts, quoted with
              | [.literal s], false =>
                match s.toList with
                | [d] => if d.isDigit then some (d.toNat - '0'.toNat) else none
                | _ => none
              | _, _ => none
            match fd, r2.input with
            | some n, d :: rest2 =>
              if (d == '<' || d == '>') && !marker then .ok (readRedirOp (some n) d { r2 with input := rest2 })
              else .ok (.word ⟨parts, quoted⟩, r2)
            | _, _ => .ok (.word ⟨parts, quoted⟩, r2)

/-- Read a token, passing newlines first when asked (reading the here-document bodies after
each), and recognising reserved words and aliases as asked. -/
def readToken : Nat → Check → Reader → Reading Token
  | 0, _, r => .error (r.fault "Syntax error: nested too deeply")
  | fuel + 1, chk, r =>
    match lexToken fuel false r with
    | .error e => .error e
    | .ok (t, r) =>
      let chk := if r.aliasNext then { chk with aliases := true } else chk
      let r := { r with aliasNext := false }
      match passNewlines fuel chk.newlines t r with
      | .error e => .error e
      | .ok (t, r) =>
        match t with
        | .word w =>
          match w.parts.plainText?, w.quoted with
          | some s, false =>
            match (if chk.keywords then Keyword.ofText? s else none) with
            | some k => .ok (.keyword k, r)
            | none =>
              let found := if chk.aliases && !(r.expanding.any (·.1 == s)) then
                (r.aliases.find? (·.1 == s)).map (·.2) else none
              match found with
              | some v =>
                let cs := v.toList
                let blank := cs.getLast? == some ' ' || cs.getLast? == some '\t'
                readToken fuel chk
                  { r with input := cs ++ [aliasEnd] ++ r.input, expanding := (s, blank) :: r.expanding }
              | none => .ok (t, r)
          | _, _ => .ok (t, r)
        | _ => .ok (t, r)

/-- Pass newline tokens when `skip`, reading the here-document bodies that follow each. -/
def passNewlines : Nat → Bool → Token → Reader → Reading Token
  | 0, _, _, r => .error (r.fault "Syntax error: nested too deeply")
  | fuel + 1, skip, t, r =>
    match t, skip with
    | .newline, true =>
      match readHereBodies fuel r with
      | .error e => .error e
      | .ok (_, r) =>
        match lexToken fuel false r with
        | .error e => .error e
        | .ok (t, r) => passNewlines fuel skip t r
    | _, _ => .ok (t, r)

/-- Read the bodies of the waiting here-documents, in order, from the start of a line. -/
def readHereBodies : Nat → Reader → Reading Unit
  | 0, r => .error (r.fault "Syntax error: nested too deeply")
  | fuel + 1, r =>
    match r.pending with
    | [] => .ok ((), r)
    | req :: more =>
      let (text, after, lines) := hereLines req.marker.toList req.stripTabs r.input.length r.input
      let startLine := r.line
      let r := { r with input := after, line := r.line + lines, pending := more }
      if req.expand then
        match readParts fuel .hereBody 0 [] false
            { input := text, line := startLine, aliases := r.aliases, nextHere := r.nextHere } with
        | .error e => .error e
        | .ok ((body, _), _) => readHereBodies fuel { r with bodies := r.bodies ++ [(req.id, body)] }
      else
        readHereBodies fuel { r with bodies := r.bodies ++ [(req.id, [.quoted (String.ofList text)])] }

/-- Read command lists: and-or lists ended by `;`, `&` or a newline. At the top (`top`) the
lists end at the newline that ends the line, which stays unread; the flag returned tells that
the input ended before any list. Inside a compound command they end before a token that ends
lists, looked for from the second list on unless `checkEnd`. -/
def parseList : Nat → Bool → Bool → Check → List AndOr → Reader → Reading (List AndOr × Bool)
  | 0, _, _, _, _, r => .error (r.fault "Syntax error: nested too deeply")
  | fuel + 1, top, checkEnd, chk, acc, r =>
    match readToken fuel chk r with
    | .error e => .error e
    | .ok (t, r) =>
      let r := r.push t
      match t with
      | .newline =>
        if top then
          match readHereBodies fuel r with
          | .ok (_, r) => .ok ((acc, false), r)
          | .error e => .error e
        else parseListItem fuel top checkEnd acc r
      | .eof =>
        match readHereBodies fuel r with
        | .ok (_, r) => .ok ((acc, top && acc.isEmpty), r)
        | .error e => .error e
      | _ => parseListItem fuel top checkEnd acc r

/-- One and-or list of `parseList`, after the token that starts it was looked at. -/
def parseListItem : Nat → Bool → Bool → List AndOr → Reader → Reading (List AndOr × Bool)
  | 0, _, _, _, r => .error (r.fault "Syntax error: nested too deeply")
  | fuel + 1, top, checkEnd, acc, r =>
    let ended : Except SyntaxFault (Bool × Reader) :=
      if !top && checkEnd then
        match readToken fuel Check.all r with
        | .ok (t, r) => .ok (t.endsList, r.push t)
        | .error e => .error e
      else .ok (false, r)
    match ended with
    | .error e => .error e
    | .ok (true, r) => .ok ((acc, false), r)
    | .ok (false, r) =>
      match parseAndOr fuel r with
      | .error e => .error e
      | .ok (item, r) =>
        match readToken fuel Check.none r with
        | .error e => .error e
        | .ok (t, r) =>
          let item := match t, item with
            | .amp, .mk p links _ => AndOr.mk p links true
            | _, _ => item
          let acc := acc ++ [item]
          match t with
          | .newline | .eof => parseList fuel top true Check.none acc (r.push t)
          | .amp | .semi => parseList fuel top true Check.none acc r
          | _ =>
            if top then .error (unexpected r t none)
            else .ok ((acc, false), r.push t)

/-- An and-or list: pipelines joined by `&&` and `||`. -/
def parseAndOr : Nat → Reader → Reading AndOr
  | 0, r => .error (r.fault "Syntax error: nested too deeply")
  | fuel + 1, r =>
    match parsePipeline fuel Check.all r with
    | .error e => .error e
    | .ok (p, r) =>
      match parseLinks fuel [] r with
      | .error e => .error e
      | .ok (links, r) => .ok (.mk p links false, r)

/-- The `&&` and `||` links after the first pipeline of an and-or list. -/
def parseLinks : Nat → List Link → Reader → Reading (List Link)
  | 0, _, r => .error (r.fault "Syntax error: nested too deeply")
  | fuel + 1, acc, r =>
    match readToken fuel Check.none r with
    | .error e => .error e
    | .ok (.andIf, r) =>
      match parsePipeline fuel Check.all r with
      | .ok (p, r) => parseLinks fuel (acc ++ [.andThen p]) r
      | .error e => .error e
    | .ok (.orIf, r) =>
      match parsePipeline fuel Check.all r with
      | .ok (p, r) => parseLinks fuel (acc ++ [.orElse p]) r
      | .error e => .error e
    | .ok (t, r) => .ok (acc, r.push t)

/-- A pipeline: commands joined by `|`, maybe after `!`. -/
def parsePipeline : Nat → Check → Reader → Reading Pipeline
  | 0, _, r => .error (r.fault "Syntax error: nested too deeply")
  | fuel + 1, chk, r =>
    match readToken fuel chk r with
    | .error e => .error e
    | .ok (t, r) =>
      let (negated, chk2, r) := match t with
        | .keyword .bang => (true, Check.words, r)
        | _ => (false, Check.none, r.push t)
      match parseCommand fuel chk2 r with
      | .error e => .error e
      | .ok (c, r) =>
        match parsePipes fuel [c] r with
        | .error e => .error e
        | .ok (cs, r) => .ok (.mk negated cs, r)

/-- The commands after the first of a pipeline. -/
def parsePipes : Nat → List Command → Reader → Reading (List Command)
  | 0, _, r => .error (r.fault "Syntax error: nested too deeply")
  | fuel + 1, acc, r =>
    match readToken fuel Check.none r with
    | .error e => .error e
    | .ok (.pipe, r) =>
      match parseCommand fuel Check.all r with
      | .ok (c, r) => parsePipes fuel (acc ++ [c]) r
      | .error e => .error e
    | .ok (t, r) => .ok (acc, r.push t)

/-- A command. -/
def parseCommand : Nat → Check → Reader → Reading Command
  | 0, _, r => .error (r.fault "Syntax error: nested too deeply")
  | fuel + 1, chk, r =>
    let line := r.line
    match readToken fuel chk r with
    | .error e => .error e
    | .ok (t, r) =>
      let body (r : Reader) := parseList fuel false false Check.none [] r
      let expect (want : Token) (ok : Token → Bool) (r : Reader) : Reading Unit :=
        match readToken fuel Check.none r with
        | .ok (t, r) => if ok t then .ok ((), r) else .error (unexpected r t (some want))
        | .error e => .error e
      let isKw (k : Keyword) : Token → Bool
        | .keyword k' => k' == k
        | _ => false
      let withRedirs (mk : List Redirect → Command) (r : Reader) : Reading Command :=
        match parseRedirs fuel Check.words [] r with
        | .ok (rs, r) => .ok (mk rs, r)
        | .error e => .error e
      match t with
      | .keyword .ifWord =>
        match parseBranches fuel [] r with
        | .error e => .error e
        | .ok ((branches, otherwise), r) =>
          match expect (.keyword .fiWord) (isKw .fiWord) r with
          | .ok (_, r) => withRedirs (.ifThen branches otherwise) r
          | .error e => .error e
      | .keyword .whileWord | .keyword .untilWord =>
        match body r with
        | .error e => .error e
        | .ok ((cond, _), r) =>
          match expect (.keyword .doWord) (isKw .doWord) r with
          | .error e => .error e
          | .ok (_, r) =>
            match body r with
            | .error e => .error e
            | .ok ((b, _), r) =>
              match expect (.keyword .doneWord) (isKw .doneWord) r with
              | .ok (_, r) => withRedirs (.loop (isKw .untilWord t) cond b) r
              | .error e => .error e
      | .keyword .forWord =>
        match readToken fuel Check.none r with
        | .error e => .error e
        | .ok (v, r) =>
          let name := match v with
            | .word w => if w.quoted then none else w.parts.plainText?.filter isName
            | _ => none
          match name with
          | none => .error (syntaxError r "Bad for loop variable")
          | some name =>
            match readToken fuel Check.all r with
            | .error e => .error e
            | .ok (t, r) =>
              let listed : Reading (Option (List Word)) :=
                if isKw .inWord t then
                  match forWords fuel [] r with
                  | .error e => .error e
                  | .ok ((ws, last), r) =>
                    match last with
                    | .newline | .semi => .ok (some ws, r)
                    | _ => .error (unexpected r last none)
                else .ok (none, match t with | .semi => r | _ => r.push t)
              match listed with
              | .error e => .error e
              | .ok (ws, r) =>
                match readToken fuel Check.all r with
                | .error e => .error e
                | .ok (t, r) =>
                  if !isKw .doWord t then .error (unexpected r t (some (.keyword .doWord)))
                  else
                    match body r with
                    | .error e => .error e
                    | .ok ((b, _), r) =>
                      match expect (.keyword .doneWord) (isKw .doneWord) r with
                      | .ok (_, r) => withRedirs (fun rs => .forEach name ws b rs line) r
                      | .error e => .error e
      | .keyword .caseWord =>
        match readToken fuel Check.none r with
        | .error e => .error e
        | .ok (.word subject, r) =>
          match readToken fuel Check.all r with
          | .error e => .error e
          | .ok (t, r) =>
            if !isKw .inWord t then .error (unexpected r t (some (.keyword .inWord)))
            else
              match parseCaseArms fuel [] r with
              | .ok (arms, r) => withRedirs (fun rs => .caseOf subject.parts arms rs line) r
              | .error e => .error e
        | .ok (t, r) => .error (unexpected r t (some (.word ⟨[], false⟩)))
      | .lparen =>
        match body r with
        | .error e => .error e
        | .ok ((b, _), r) =>
          match expect .rparen (fun t => match t with | .rparen => true | _ => false) r with
          | .ok (_, r) => withRedirs (fun rs => .subshell b rs line) r
          | .error e => .error e
      | .keyword .openBrace =>
        match body r with
        | .error e => .error e
        | .ok ((b, _), r) =>
          match expect (.keyword .closeBrace) (isKw .closeBrace) r with
          | .ok (_, r) => withRedirs (.group b) r
          | .error e => .error e
      | .word _ | .redirect _ _ => parseSimple fuel [] [] [] true (r.push t)
      | _ => .error (unexpected r t none)

/-- The branches of an `if` after its `if`, and its `else` part. -/
def parseBranches : Nat → List Branch → Reader → Reading (List Branch × Option (List AndOr))
  | 0, _, r => .error (r.fault "Syntax error: nested too deeply")
  | fuel + 1, acc, r =>
    match parseList fuel false false Check.none [] r with
    | .error e => .error e
    | .ok ((cond, _), r) =>
      match readToken fuel Check.none r with
      | .error e => .error e
      | .ok (.keyword .thenWord, r) =>
        match parseList fuel false false Check.none [] r with
        | .error e => .error e
        | .ok ((b, _), r) =>
          let acc := acc ++ [.mk cond b]
          match readToken fuel Check.none r with
          | .error e => .error e
          | .ok (.keyword .elifWord, r) => parseBranches fuel acc r
          | .ok (.keyword .elseWord, r) =>
            match parseList fuel false false Check.none [] r with
            | .ok ((els, _), r) => .ok ((acc, some els), r)
            | .error e => .error e
          | .ok (t, r) => .ok ((acc, none), r.push t)
      | .ok (t, r) => .error (unexpected r t (some (.keyword .thenWord)))

/-- The words of a `for` after `in`, and the token after them. -/
def forWords : Nat → List Word → Reader → Reading (List Word × Token)
  | 0, _, r => .error (r.fault "Syntax error: nested too deeply")
  | fuel + 1, acc, r =>
    match readToken fuel Check.none r with
    | .error e => .error e
    | .ok (.word w, r) => forWords fuel (acc ++ [w.parts]) r
    | .ok (t, r) => .ok ((acc, t), r)

/-- The arms of a `case` after its `in`, through `esac`. -/
def parseCaseArms : Nat → List CaseArm → Reader → Reading (List CaseArm)
  | 0, _, r => .error (r.fault "Syntax error: nested too deeply")
  | fuel + 1, acc, r =>
    match readToken fuel ⟨true, true, false⟩ r with
    | .error e => .error e
    | .ok (.keyword .esacWord, r) => .ok (acc, r)
    | .ok (t, r) =>
      let first : Reading Token := match t with
        | .lparen => readToken fuel Check.none r
        | _ => .ok (t, r)
      match first with
      | .error e => .error e
      | .ok (t, r) =>
        match casePatterns fuel [] t r with
        | .error e => .error e
        | .ok (pats, r) =>
          match parseList fuel false true Check.none [] r with
          | .error e => .error e
          | .ok ((b, _), r) =>
            let acc := acc ++ [.mk pats b]
            match readToken fuel ⟨true, true, false⟩ r with
            | .error e => .error e
            | .ok (.keyword .esacWord, r) => .ok (acc, r)
            | .ok (.dsemi, r) => parseCaseArms fuel acc r
            | .ok (t, r) => .error (unexpected r t (some .dsemi))

/-- The patterns of a `case` arm, from the token `t` that holds the first, through `)`. The
token in a pattern's place is not checked: whatever it is, the token after it must be `|` or
`)`, and that one is the token a fault names. -/
def casePatterns : Nat → List Word → Token → Reader → Reading (List Word)
  | 0, _, _, r => .error (r.fault "Syntax error: nested too deeply")
  | fuel + 1, acc, t, r =>
    let p : Word := match t with
      | .word w => w.parts
      | .keyword k => [.literal k.text]
      | _ => []
    match readToken fuel Check.none r with
    | .error e => .error e
    | .ok (.pipe, r) =>
      match readToken fuel Check.none r with
      | .ok (t, r) => casePatterns fuel (acc ++ [p]) t r
      | .error e => .error e
    | .ok (.rparen, r) => .ok (acc ++ [p], r)
    | .ok (t, r) => .error (unexpected r t (some .rparen))

/-- The redirections after a compound command. -/
def parseRedirs : Nat → Check → List Redirect → Reader → Reading (List Redirect)
  | 0, _, _, r => .error (r.fault "Syntax error: nested too deeply")
  | fuel + 1, chk, acc, r =>
    match readToken fuel chk r with
    | .error e => .error e
    | .ok (.redirect fd op, r) =>
      match parseTarget fuel (fd.getD op.defaultFd) op r with
      | .ok (rd, r) => parseRedirs fuel Check.none (acc ++ [rd]) r
      | .error e => .error e
    | .ok (t, r) => .ok (acc, r.push t)

/-- The target of a redirection: a word, or a here-document's marker, after which its body is
waited for. -/
def parseTarget : Nat → Nat → RedirOp → Reader → Reading Redirect
  | 0, _, _, r => .error (r.fault "Syntax error: nested too deeply")
  | fuel + 1, fd, op, r =>
    match op with
    | .hereDoc strip =>
      match lexToken fuel true r with
      | .error e => .error e
      | .ok (.word w, r) =>
        let id := r.nextHere
        let req : HereRequest := ⟨id, markerText w.parts, strip, !w.quoted⟩
        .ok (.here fd id, { r with nextHere := id + 1, pending := r.pending ++ [req] })
      | .ok (t, r) => .error (unexpected r t none)
    | .plain kind =>
      match readToken fuel Check.none r with
      | .error e => .error e
      | .ok (.word w, r) => .ok (.file fd kind w.parts, r)
      | .ok (t, r) => .error (unexpected r t none)

/-- A simple command, or a function definition: assignments while aliases are still looked
up, then words, with redirections anywhere. -/
def parseSimple : Nat → List Word → List Word → List Redirect → Bool → Reader → Reading Command
  | 0, _, _, _, _, r => .error (r.fault "Syntax error: nested too deeply")
  | fuel + 1, assigns, words, redirs, early, r =>
    let line := r.line
    match readToken fuel (if early then { aliases := true } else Check.none) r with
    | .error e => .error e
    | .ok (.word w, r) =>
      if early && (Word.assignment? w.parts).isSome then
        parseSimple fuel (assigns ++ [w.parts]) words redirs true r
      else parseSimple fuel assigns (words ++ [w.parts]) redirs false r
    | .ok (.redirect fd op, r) =>
      match parseTarget fuel (fd.getD op.defaultFd) op r with
      | .ok (rd, r) => parseSimple fuel assigns words (redirs ++ [rd]) early r
      | .error e => .error e
    | .ok (.lparen, r) =>
      match words, assigns, redirs with
      | [w], [], [] =>
        match readToken fuel Check.none r with
        | .error e => .error e
        | .ok (.rparen, r) =>
          match w.plainText? with
          | some name =>
            if isName name && !specialBuiltins.contains name then
              let defLine := r.line
              match parseCommand fuel Check.all r with
              | .ok (body, r) => .ok (.function name body defLine, r)
              | .error e => .error e
            else .error (syntaxError r "Bad function name")
          | none => .error (syntaxError r "Bad function name")
        | .ok (t, r) => .error (unexpected r t (some .rparen))
      | _, _, _ => .ok (.simple assigns words redirs line, r.push .lparen)
    | .ok (t, r) => .ok (.simple assigns words redirs line, r.push t)

end

/-- A reader of a text. -/
def Reader.ofText (text : Bytes) (aliases : List (Bytes × Bytes)) (nextHere : Nat) : Reader :=
  { input := text.toList, aliases, nextHere }

/-- How deep the reading of a text may nest: far more than any text needs. -/
def Reader.fuel (r : Reader) : Nat := 64 * r.input.length + 256

/-- Read the next command line; none when the input has ended. -/
def Reader.nextLine (r : Reader) : Except SyntaxFault (Option (List AndOr) × Reader) :=
  match parseList r.fuel true false Check.none [] { r with pushed := none } with
  | .ok ((items, atEnd), r) => .ok (if atEnd then none else some items, r)
  | .error e => .error e

theorem takeLine_append {l rest : List Char} (h : '\n' ∉ l) :
    takeLine (l ++ '\n' :: rest) = (l, rest, true) := by
  have hall : ∀ c ∈ l, (c != '\n') = true :=
    List.filter_eq_self.mp (List.filter_bne_eq_self_of_not_mem h)
  have htake : (l ++ '\n' :: rest).takeWhile (· != '\n') = l := by
    rw [List.takeWhile_append_of_pos hall, List.takeWhile_cons_of_neg (by simp), List.append_nil]
  simp only [takeLine, htake, List.drop_left]

/-- A here-document's body is its lines up to the line that is its marker, each with its
newline, and reading goes on after the marker's line. -/
theorem hereLines_lines {marker : List Char} (lines : List (List Char)) (rest : List Char)
    (hlines : ∀ l ∈ lines, '\n' ∉ l ∧ aliasEnd ∉ l ∧ l ≠ marker)
    (hmarker : '\n' ∉ marker ∧ aliasEnd ∉ marker) {fuel : Nat} (hfuel : lines.length < fuel) :
    hereLines marker false fuel ((lines.map (· ++ ['\n'])).flatten ++ marker ++ '\n' :: rest) =
      ((lines.map (· ++ ['\n'])).flatten, rest, lines.length + 1) := by
  induction lines generalizing fuel with
  | nil =>
    obtain ⟨n, rfl⟩ : ∃ n, fuel = n + 1 := ⟨fuel - 1, by simp at hfuel; omega⟩
    simp [hereLines, takeLine_append hmarker.1, List.filter_bne_eq_self_of_not_mem hmarker.2]
  | cons l lines ih =>
    obtain ⟨n, rfl⟩ : ∃ n, fuel = n + 1 := ⟨fuel - 1, by simp at hfuel; omega⟩
    obtain ⟨hnl, hend, hne⟩ := hlines l List.mem_cons_self
    have hrest := ih (fun l' hl' => hlines l' (List.mem_cons_of_mem _ hl'))
      (by simp at hfuel; omega : lines.length < n)
    -- the first line is cut at its newline and, not being the marker, kept
    have hinput : (((l :: lines).map (· ++ ['\n'])).flatten ++ marker ++ '\n' :: rest) =
        l ++ '\n' :: ((lines.map (· ++ ['\n'])).flatten ++ marker ++ '\n' :: rest) := by
      simp
    rw [List.append_assoc] at hrest
    rw [hinput, hereLines]
    simp [takeLine_append hnl, List.filter_bne_eq_self_of_not_mem hend, hne, hrest]

example : hereLines "EOF".toList false 10 "a\n\tb\nEOF\nls\n".toList =
    ("a\n\tb\n".toList, "ls\n".toList, 3) := by
  decide

end BuildRecipe.Shell
