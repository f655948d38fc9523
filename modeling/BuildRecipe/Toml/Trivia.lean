import BuildRecipe.Toml.Cursor
/-!
# Whitespace, comments and line ends

The pieces of a TOML document that carry no data: blanks (space and tab), comments from `#`
to the end of the line, and line ends (a line feed, or a carriage return before one). A
comment may hold the tab, every printable ASCII character and every character beyond
ASCII; other control characters end it.

Main statements: blanks are spaces and tabs only (`isBlank_iff`), and a comment runs from
its `#` to the first character it may not hold, a line end among them (`comment_run`).
-/

namespace BuildRecipe.Toml

open Reader

/-- `wschar = %x20 / %x09`: a space or a tab. -/
def isBlank (c : Char) : Bool := c == ' ' || c == '\t'

/-- `non-ascii = %x80-D7FF / %xE000-10FFFF`. -/
def isNonAscii (c : Char) : Bool := 0x80 ≤ c.toNat

/-- `non-eol = %x09 / %x20-7E / non-ascii`: what a comment may hold. -/
def isCommentChar (c : Char) : Bool :=
  c == '\t' || (0x20 ≤ c.toNat && c.toNat ≤ 0x7E) || isNonAscii c

/-- Blanks, as many as there are. -/
def blanks : Reader Unit := do let _ ← takeWhile isBlank

/-- `comment = "#" *non-eol`. -/
def comment : Reader Unit := do
  char '#'
  let _ ← takeWhile isCommentChar

/-- `newline = %x0A / %x0D.0A`. The character after a carriage return must be a line
feed; any other first character is refused after it is read. -/
def newline : Reader Unit := do
  let ch ← anyChar
  if ch = '\n' then return ()
  else if ch = '\r' then char '\n'
  else refuse

/-- `ws-newline = *( wschar / newline )`. -/
def blanksAndNewlines : Reader Unit := do
  let _ ← many (orElse newline (do let _ ← takeWhile1 isBlank))

/-- `ws-newlines = newline *( wschar / newline )`. -/
def newlines : Reader Unit := do
  newline
  blanksAndNewlines

/-- Blanks, comments and line ends from a cursor, until something else comes; a comment
must end at a line end. -/
def triviaFrom (c : Cursor) : Except Failure (Unit × Cursor) :=
  match blanks c with
  | .error f => .error f
  | .ok ((), c1) =>
    let step : Option (Reader Unit) := match c1.rest.head? with
      | some '#' => some (do comment; newline)
      | some '\n' => some newline
      | some '\r' => some newline
      | _ => none
    match step with
    | none => .ok ((), c1)
    | some r =>
      match r c1 with
      | .error f => .error f
      | .ok ((), c2) => if c2.rest.length < c.rest.length then triviaFrom c2 else .ok ((), c2)
termination_by c.rest.length

/-- Blanks, comments and line ends, as between the values of an array. -/
def trivia : Reader Unit := fun c => triviaFrom c

/-- `line-ending = newline / eof`. -/
def lineEnding : Reader Unit := orElse newline eof

/-- Blanks and an optional comment, then the end of the line. -/
def lineTrailing : Reader Unit := do
  blanks
  let _ ← optional comment
  lineEnding

theorem isBlank_iff (c : Char) : isBlank c = true ↔ c = ' ' ∨ c = '\t' := by
  simp [isBlank]

theorem takeWhile_prefix {p : Char → Bool} {body rest : List Char} (hbody : ∀ c ∈ body, p c)
    (hstop : ∀ c ∈ rest.head?, p c = false) : (body ++ rest).takeWhile p = body := by
  rw [List.takeWhile_append_of_pos hbody]
  cases rest with
  | nil => simp
  | cons c r => simp [hstop c rfl]

/-- A comment runs from its `#` to the first character it may not hold, a line end among them:
the cursor stands there after it, past the bytes read. -/
theorem comment_run {body rest : List Char} (hbody : ∀ c ∈ body, isCommentChar c)
    (hstop : ∀ c ∈ rest.head?, isCommentChar c = false) (offset : Nat) :
    comment ⟨'#' :: (body ++ rest), offset⟩ =
      .ok ((), ⟨rest, offset + 1 + (String.ofList body).utf8ByteSize⟩) := by
  have hrun := takeWhile_prefix hbody hstop
  have htake : body.take (body.length + rest.length) = body := List.take_of_length_le (by omega)
  have hhash : '#'.utf8Size = 1 := rfl
  -- the state steps by their values, so no equation of the state monad is unfolded by name
  have hset : ∀ d c : Cursor, (StateT.set d c : Except Failure (PUnit × Cursor)) = .ok (⟨⟩, d) :=
    fun _ _ => rfl
  have hpure : ∀ {α : Type} (a : α) (c : Cursor),
      (StateT.pure a c : Except Failure (α × Cursor)) = .ok (a, c) := fun _ _ => rfl
  simp [comment, char, satisfy, takeWhile, takeUpTo, Cursor.next, hrun, htake, hhash,
    bind, StateT.bind, get, getThe, MonadStateOf.get, StateT.get, set, pure, hset, hpure,
    Except.bind, Except.pure]

example : ((comment (Cursor.ofString "# é\nx")).toOption.map (·.2)) = some ⟨"\nx".toList, 4⟩ ∧
    isCommentChar '\r' = false := by
  decide

end BuildRecipe.Toml
