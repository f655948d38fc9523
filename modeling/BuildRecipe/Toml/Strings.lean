import BuildRecipe.Toml.Trivia
/-!
# TOML strings

The four forms of a string: basic (`"..."`, with escapes), multi-line basic (`"""..."""`,
escapes, line ends, and a backslash at a line's end that swallows the blanks and line ends
after it), literal (`'...'`, taken as written) and multi-line literal (`'''...'''`). A line
end straight after the opening of a multi-line string is dropped, and a multi-line literal
string turns every CRLF into LF. Up to two quotes may stand before the closing three.

An escape is one of `\b \f \n \r \t \" \\`, or `\u` with four and `\U` with eight hex digits
naming a Unicode scalar value. A bad escape is reported just after the backslash's partner;
a hex escape with too few digits, or one naming no scalar value, at the first digit.

Main statements: the one-letter escapes stand for different characters (`escapeValue_inj`),
and hex digits name a character exactly when they name a scalar value, the character with
that code point (`scalarOf?_eq_some_iff`).
-/

namespace BuildRecipe.Toml

open Reader

/-- `basic-unescaped = wschar / %x21 / %x23-5B / %x5D-7E / non-ascii`. -/
def isBasicUnescaped (c : Char) : Bool :=
  isBlank c || c.toNat = 0x21 || (0x23 ≤ c.toNat && c.toNat ≤ 0x5B) ||
    (0x5D ≤ c.toNat && c.toNat ≤ 0x7E) || isNonAscii c

/-- `literal-char = %x09 / %x20-26 / %x28-7E / non-ascii`. -/
def isLiteralChar (c : Char) : Bool :=
  c == '\t' || (0x20 ≤ c.toNat && c.toNat ≤ 0x26) || (0x28 ≤ c.toNat && c.toNat ≤ 0x7E) ||
    isNonAscii c

/-- `HEXDIG`. -/
def isHexDigit (c : Char) : Bool :=
  c.isDigit || ('a' ≤ c && c ≤ 'f') || ('A' ≤ c && c ≤ 'F')

/-- The value of a hex digit. -/
def hexValue (c : Char) : Nat :=
  if c.isDigit then c.toNat - '0'.toNat
  else if 'a' ≤ c && c ≤ 'f' then c.toNat - 'a'.toNat + 10
  else c.toNat - 'A'.toNat + 10

/-- The number written by hex digits. -/
def hexNumber (ds : List Char) : Nat := ds.foldl (fun n d => 16 * n + hexValue d) 0

/-- The character with a code point, when it is a Unicode scalar value. -/
def scalarOf? (n : Nat) : Option Char :=
  if n < 0xD800 ∨ (0xDFFF < n ∧ n < 0x110000) then some (Char.ofNat n) else none

/-- The character a one-letter escape stands for. -/
def escapeValue : Char → Option Char
  | 'b' => some '\x08'
  | 'f' => some '\x0c'
  | 'n' => some '\n'
  | 'r' => some '\r'
  | 't' => some '\t'
  | '\\' => some '\\'
  | '"' => some '"'
  | _ => none

/-- The letters that may follow a backslash, in the order messages list them. -/
def escapeLetters : List Char := ['b', 'f', 'n', 'r', 't', 'u', 'U', '\\', '"']

/-- Exactly `n` hex digits naming a scalar value. -/
def hexEscape (n : Nat) : Reader Char :=
  check (guard (takeUpTo isHexDigit n) (·.length == n)) fun ds =>
    match scalarOf? (hexNumber ds) with
    | some ch => .ok ch
    | none => .error .outOfRange

/-- The character after a backslash and what it stands for. -/
def escapeSequence : Reader Char := do
  let start ← here
  let ch ← anyChar
  if ch = 'u' then cut (label "unicode 4-digit hex code" (hexEscape 4))
  else if ch = 'U' then cut (label "unicode 8-digit hex code" (hexEscape 8))
  else match escapeValue ch with
    | some v => return v
    | none =>
      throw { offset := start.offset + 1, committed := true,
              contexts := .label "escape sequence" ::
                escapeLetters.map fun l => .expected (.char l) }

/-- `escaped = escape escape-seq-char`. -/
def escaped : Reader Char := do
  char '\\'
  escapeSequence

/-- A piece of a basic string: a run of plain characters or one escape. -/
def basicChunk : Reader (List Char) :=
  orElse (takeWhile1 isBasicUnescaped) (do return [← escaped])

/-- `basic-string = quotation-mark *basic-char quotation-mark`. -/
def basicString : Reader String := do
  char '"'
  let chunks ← many basicChunk
  cut (label "basic string" (char '"'))
  return String.ofList chunks.flatten

/-- `mlb-escaped-nl`: backslashes at line ends with the blanks and line ends after them. -/
def escapedNewlines : Reader Unit := do
  let _ ← many1 (do char '\\'; blanks; newlines)

/-- A piece of a multi-line basic string. -/
def mlBasicChunk : Reader (List Char) :=
  orElse (takeWhile1 isBasicUnescaped) <|
  orElse (do escapedNewlines; return []) <|
  orElse (do return [← escaped]) (do newline; return ['\n'])

/-- One or two quotes followed by what `term` accepts, which is not read. -/
def quotesBefore (q : Char) (term : Reader Unit) : Reader (List Char) :=
  orElse (do char q; char q; lookAhead term; return [q, q])
    (do char q; lookAhead term; return [q])

/-- Any character but `q`, not read. -/
def notChar (q : Char) : Reader Unit := do let _ ← satisfy (· != q)

/-- Groups of quotes each followed by content, from a cursor. -/
def mlBasicQuotedFrom (acc : List Char) (c : Cursor) : Except Failure (List Char × Cursor) :=
  match optional (quotesBefore '"' (notChar '"')) c with
  | .error f => .error f
  | .ok (none, c1) => .ok (acc, c1)
  | .ok (some qs, c1) =>
    match optional mlBasicChunk c1 with
    | .error f => .error f
    | .ok (none, c2) => .ok (acc, c2)
    | .ok (some first, c2) =>
      match many mlBasicChunk c2 with
      | .error f => .error f
      | .ok (more, c3) =>
        let acc := acc ++ qs ++ first ++ more.flatten
        if c3.rest.length < c.rest.length then mlBasicQuotedFrom acc c3 else .ok (acc, c3)
termination_by c.rest.length

/-- `ml-basic-body`. -/
def mlBasicBody : Reader (List Char) := do
  let head ← many mlBasicChunk
  let body ← fun c => mlBasicQuotedFrom head.flatten c
  match ← optional (quotesBefore '"' (literal "\"\"\"")) with
  | some qs => return body ++ qs
  | none => return body

/-- `ml-basic-string`. -/
def mlBasicString : Reader String :=
  label "multiline basic string" do
    literal "\"\"\""
    let _ ← optional newline
    let body ← cut mlBasicBody
    cut (literal "\"\"\"")
    return String.ofList body

/-- `literal-string = apostrophe *literal-char apostrophe`. -/
def literalString : Reader String :=
  label "literal string" do
    char '\''
    let body ← cut (takeWhile isLiteralChar)
    cut (char '\'')
    return String.ofList body

/-- `mll-content = mll-char / newline`, as the characters written. -/
def mlLiteralChunk : Reader (List Char) :=
  orElse (do return [← satisfy isLiteralChar]) (do
    let (_, taken) ← withTaken newline
    return taken)

/-- `ml-literal-body`, as the characters written. -/
def mlLiteralBody : Reader (List Char) := do
  let head ← many mlLiteralChunk
  let groups ← many (do
    let qs ← quotesBefore '\'' (notChar '\'')
    let content ← many1 mlLiteralChunk
    return qs ++ content.flatten)
  let tail ← optional (quotesBefore '\'' (literal "'''"))
  return head.flatten ++ groups.flatten ++ tail.getD []

/-- Every CRLF turned into LF. -/
def crlfToLf : List Char → List Char
  | '\r' :: '\n' :: rest => '\n' :: crlfToLf rest
  | c :: rest => c :: crlfToLf rest
  | [] => []

/-- `ml-literal-string`. -/
def mlLiteralString : Reader String :=
  label "multiline literal string" do
    literal "'''"
    let _ ← optional newline
    let body ← cut mlLiteralBody
    cut (literal "'''")
    return String.ofList (crlfToLf body)

/-- `string = ml-basic-string / basic-string / ml-literal-string / literal-string`. -/
def string : Reader String :=
  orElse mlBasicString (orElse basicString (orElse mlLiteralString literalString))

/-- The one-letter escapes stand for different characters, and each is among the letters the
messages list. -/
theorem escapeValue_inj {c d v : Char} (hc : escapeValue c = some v) (hd : escapeValue d = some v) :
    c = d ∧ c ∈ escapeLetters := by
  unfold escapeValue at hc hd
  split at hc <;> split at hd <;> simp only [Option.some.injEq, reduceCtorEq] at hc hd <;>
    subst hc <;> first | exact ⟨rfl, by decide⟩ | exact absurd hd (by decide)

example : escapeValue 'n' = some '\n' ∧ escapeValue 'u' = none := by decide

theorem scalarOf?_surrogate (n : Nat) (h1 : 0xD800 ≤ n) (h2 : n ≤ 0xDFFF) : scalarOf? n = none := by
  have : ¬ (n < 0xD800 ∨ (0xDFFF < n ∧ n < 0x110000)) := by omega
  simp [scalarOf?, this]

/-- Hex digits name a character exactly when they name a Unicode scalar value, and the
character is the one with that code point. -/
theorem scalarOf?_eq_some_iff {n : Nat} {c : Char} :
    scalarOf? n = some c ↔ c.toNat = n ∧ (n < 0xD800 ∨ (0xDFFF < n ∧ n < 0x110000)) := by
  unfold scalarOf?
  split
  · rename_i h
    constructor
    · rintro ⟨⟩
      exact ⟨Text.toNat_ofNat_of_scalar h, h⟩
    · rintro ⟨hc, -⟩
      rw [← hc, Char.ofNat_toNat]
  · rename_i h
    simp only [reduceCtorEq, false_iff, not_and]
    exact fun _ => h

end BuildRecipe.Toml
