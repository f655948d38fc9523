import BuildRecipe.Toml.Strings
/-!
# TOML keys

A key is one or more simple keys joined by dots, blanks allowed around each. A simple key
is a basic string, a literal string, or a run of ASCII letters, digits, `-` and `_`. Each
simple key keeps its name, the text it was written as (quotes included), and the span of
that text.

Main statements: the characters of a bare key are letters, digits, `-` and `_`
(`isBareKeyChar_iff`).
-/

namespace BuildRecipe.Toml

open Reader

/-- `unquoted-key = 1*( ALPHA / DIGIT / %x2D / %x5F )`, one character of it. -/
def isBareKeyChar (c : Char) : Bool :=
  ('A' ≤ c && c ≤ 'Z') || ('a' ≤ c && c ≤ 'z') || ('0' ≤ c && c ≤ '9') || c == '-' || c == '_'

/-- `simple-key = quoted-key / unquoted-key`: its name and the text it was written as. -/
def simpleKey : Reader (String × List Char) := do
  match ← peek? with
  | some '"' => withTaken basicString
  | some '\'' => withTaken literalString
  | _ =>
    let (run, taken) ← withTaken (takeWhile1 isBareKeyChar)
    return (String.ofList run, taken)

/-- A simple key with the blanks around it. -/
def keyPart : Reader Key := do
  blanks
  let ((name, raw), span) ← withSpan simpleKey
  blanks
  return ⟨name, String.ofList raw, span⟩

/-- `key = simple-key / dotted-key`: the simple keys in order. -/
def key : Reader (List Key) := label "key" (sepBy1 keyPart (char '.'))

theorem isBareKeyChar_iff (c : Char) :
    isBareKeyChar c = true ↔
      ('A' ≤ c ∧ c ≤ 'Z') ∨ ('a' ≤ c ∧ c ≤ 'z') ∨ ('0' ≤ c ∧ c ≤ '9') ∨ c = '-' ∨ c = '_' := by
  simp only [isBareKeyChar, Bool.or_eq_true, Bool.and_eq_true, decide_eq_true_eq, beq_iff_eq]
  simp only [or_assoc]

end BuildRecipe.Toml
