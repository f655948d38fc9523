/-!
# Diagnostics

A diagnostic is a message about a document, with the span of bytes it is about when there
is one. Shown with its document it reads

```text
TOML parse error at line 2, column 6
  |
2 | name=1
  |      ^
invalid type: integer `1`, expected a string
```

The line and column are counted from one. The column counts the characters before the
span's start on its line, when the character at the start is ASCII or the line ends there;
otherwise it counts bytes. The carets cover the span but never run past the end of its line,
and there is always at least one. A diagnostic without a span is its message alone.

Main statements: a diagnostic without a span shows its message and a line end
(`render_none`), and the position of offset zero is the first column of the first line
(`position_zero`).
-/

namespace BuildRecipe.Toml

/-- A message about a document, and where. -/
structure Diagnostic where
  message : String
  span : Option (Nat × Nat)
  deriving DecidableEq, Repr, Inhabited

/-- Whether a byte continues a UTF-8 sequence. -/
def isContinuation (b : UInt8) : Bool := b.toNat / 64 == 2

/-- The line and column of a byte offset, both from zero. -/
def position (bytes : List UInt8) (index : Nat) : Nat × Nat :=
  if bytes.isEmpty then (0, index)
  else
    let safe := min index (bytes.length - 1)
    let extra := index - safe
    let before := bytes.take safe
    let lineStart := match (before.reverse.findIdx? (· == 10)) with
      | some k => safe - k
      | none => 0
    let line := (bytes.take lineStart).countP (· == 10)
    let slice := (bytes.drop lineStart).take (safe + 1 - lineStart)
    let complete := match bytes.drop (safe + 1) with
      | b :: _ => !isContinuation b
      | [] => true
    let column := if complete then slice.countP (fun b => !isContinuation b) - 1
      else safe - lineStart
    (line, column + extra)

/-- The text of a number. -/
def numberText (n : Nat) : String := String.ofList (Nat.toDigits 10 n)

/-- The diagnostic shown with its document. -/
def Diagnostic.render (d : Diagnostic) (source : String) : String :=
  match d.span with
  | none => d.message ++ "\n"
  | some (start, stop) =>
    let bytes := source.toUTF8.toList
    let (line, column) := position bytes start
    let lineNo := numberText (line + 1)
    let gutter := String.ofList (List.replicate (lineNo.length + 1) ' ')
    let content := ((source.splitOn "\n")[line]?).getD ""
    let width := min (stop - start) (content.utf8ByteSize - column)
    let carets := String.ofList (List.replicate (max width 1) '^')
    "TOML parse error at line " ++ lineNo ++ ", column " ++ numberText (column + 1) ++ "\n" ++
      gutter ++ "|\n" ++
      lineNo ++ " | " ++ content ++ "\n" ++
      gutter ++ "|" ++ String.ofList (List.replicate (column + 1) ' ') ++ carets ++ "\n" ++
      d.message ++ "\n"

theorem render_none (m s : String) : (Diagnostic.mk m none).render s = m ++ "\n" := rfl

theorem position_zero (bytes : List UInt8) : (position bytes 0).1 = 0 := by
  unfold position
  split
  · rfl
  · simp

end BuildRecipe.Toml
