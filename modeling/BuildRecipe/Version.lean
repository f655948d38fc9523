import BuildRecipe.Text.Quoted
/-!
# Semantic versions

A version is `MAJOR.MINOR.PATCH`, then optionally `-` and a pre-release, then optionally `+`
and build metadata. The three numbers are decimal without leading zeros and fit in 64 bits.
A pre-release or build metadata is a list of identifiers separated by dots, each made of
ASCII letters, digits and `-`; a pre-release identifier of digits only has no leading zero.

A text that is not a version is refused with the first fault found from the left, and the
position it was found in: the empty text, a missing part at the end, a leading zero, a
number too large, an empty identifier, a character where a part should start, or a
character after a complete part.

Main statements: three numbers in range written in decimal and joined by dots are read as the
version of those numbers (`Version.parse_numbers`), through the reading of a number's decimal
digits (`Version.number_toDigits`).
-/

namespace BuildRecipe

/-- The part of a version being read. -/
inductive VersionPart where
  | major
  | minor
  | patch
  | pre
  | build
  deriving DecidableEq, Repr, Inhabited

/-- The name of a part in messages. -/
def VersionPart.text : VersionPart → String
  | .major => "major version number"
  | .minor => "minor version number"
  | .patch => "patch version number"
  | .pre => "pre-release identifier"
  | .build => "build metadata"

/-- Why a text is not a version. -/
inductive VersionFault where
  | empty
  | unexpectedEnd (p : VersionPart)
  | leadingZero (p : VersionPart)
  | overflow (p : VersionPart)
  | emptySegment (p : VersionPart)
  | unexpectedChar (p : VersionPart) (c : Char)
  | unexpectedCharAfter (p : VersionPart) (c : Char)
  deriving DecidableEq, Repr, Inhabited

/-- A character quoted for a message; NUL is written `'\0'`. -/
def quotedChar (c : Char) : String :=
  if c.toNat = 0 then "'\\0'" else Text.quoteChar c

/-- The message of a fault. -/
def VersionFault.message : VersionFault → String
  | .empty => "empty string, expected a semver version"
  | .unexpectedEnd p => "unexpected end of input while parsing " ++ p.text
  | .leadingZero p => "invalid leading zero in " ++ p.text
  | .overflow p => "value of " ++ p.text ++ " exceeds u64::MAX"
  | .emptySegment p => "empty identifier segment in " ++ p.text
  | .unexpectedChar p c => "unexpected character " ++ quotedChar c ++ " while parsing " ++ p.text
  | .unexpectedCharAfter p c => "unexpected character " ++ quotedChar c ++ " after " ++ p.text

/-- A semantic version. -/
structure Version where
  major : Nat
  minor : Nat
  patch : Nat
  pre : String
  build : String
  deriving DecidableEq, Repr, Inhabited

namespace Version

/-- The largest number a part may hold. -/
def maxPart : Nat := 18446744073709551615

/-- Digits and the number they write, stopping at a leading zero or an overflow. -/
def digitsFrom (p : VersionPart) (value count : Nat) :
    List Char → Except VersionFault (Nat × Nat × List Char)
  | c :: rest =>
    if c.isDigit then
      if value = 0 ∧ 0 < count then .error (.leadingZero p)
      else
        let v := 10 * value + (c.toNat - '0'.toNat)
        if maxPart < v then .error (.overflow p) else digitsFrom p v (count + 1) rest
    else .ok (value, count, c :: rest)
  | [] => .ok (value, count, [])

/-- A number of a version and the text after it. -/
def number (p : VersionPart) (cs : List Char) : Except VersionFault (Nat × List Char) := do
  let (v, n, rest) ← digitsFrom p 0 0 cs
  if 0 < n then return (v, rest)
  else match rest with
    | c :: _ => throw (.unexpectedChar p c)
    | [] => throw (.unexpectedEnd p)

/-- The dot after a number. -/
def dot (p : VersionPart) : List Char → Except VersionFault (List Char)
  | '.' :: rest => .ok rest
  | c :: _ => .error (.unexpectedCharAfter p c)
  | [] => .error (.unexpectedEnd p)

/-- Whether a character may stand in an identifier. -/
def isIdentChar (c : Char) : Bool :=
  ('A' ≤ c && c ≤ 'Z') || ('a' ≤ c && c ≤ 'z') || c == '-' || ('0' ≤ c && c ≤ '9')

/-- Why a list of identifier segments is refused, if it is: the first empty segment, or in
a pre-release the first number with a leading zero. -/
def segmentFault (p : VersionPart) : List (List Char) → Option VersionFault
  | [] => none
  | seg :: rest =>
    if seg.isEmpty then some (.emptySegment p)
    else if p = .pre ∧ 1 < seg.length ∧ seg.all Char.isDigit ∧ seg.head? = some '0' then
      some (.leadingZero p)
    else segmentFault p rest

/-- Dot-separated identifiers: the text they take and the rest. -/
def identifiers (p : VersionPart) (cs : List Char) : Except VersionFault (List Char × List Char) :=
  let body := cs.takeWhile fun c => isIdentChar c || c == '.'
  let rest := cs.drop body.length
  if body.isEmpty then .ok ([], cs)
  else match segmentFault p (body.splitOn '.') with
    | some f => .error f
    | none => .ok (body, rest)

/-- A version read from text. -/
def parse (s : String) : Except VersionFault Version := do
  let cs := s.toList
  if cs.isEmpty then throw .empty
  let (major, cs) ← number .major cs
  let cs ← dot .major cs
  let (minor, cs) ← number .minor cs
  let cs ← dot .minor cs
  let (patch, cs) ← number .patch cs
  if cs.isEmpty then return ⟨major, minor, patch, "", ""⟩
  let (pre, cs, part) ← match cs with
    | '-' :: rest => do
      let (pre, rest) ← identifiers .pre rest
      if pre.isEmpty then throw (.emptySegment .pre)
      pure (pre, rest, VersionPart.pre)
    | _ => pure ([], cs, VersionPart.patch)
  let (build, cs, part) ← match cs with
    | '+' :: rest => do
      let (build, rest) ← identifiers .build rest
      if build.isEmpty then throw (.emptySegment .build)
      pure (build, rest, VersionPart.build)
    | _ => pure ([], cs, part)
  match cs with
  | c :: _ => throw (.unexpectedCharAfter part c)
  | [] => return ⟨major, minor, patch, String.ofList pre, String.ofList build⟩

/-- Reading digits stops, keeping what it read, at a text that does not start with a digit. -/
theorem digitsFrom_stop (p : VersionPart) (value count : Nat) {rest : List Char}
    (hr : ∀ c cs, rest = c :: cs → c.isDigit = false) :
    digitsFrom p value count rest = .ok (value, count, rest) := by
  cases rest with
  | nil => rfl
  | cons c cs => simp [digitsFrom, hr c cs rfl]

/-- The decimal digits of a number in range are read as that number, and reading goes on after
them; the induction follows the digits, the last one added to the number its first ones
write. -/
theorem digitsFrom_toDigits (p : VersionPart) {n : Nat} (hn : n ≤ maxPart) (rest : List Char) :
    digitsFrom p 0 0 (Nat.toDigits 10 n ++ rest) =
      digitsFrom p n (Nat.toDigits 10 n).length rest := by
  induction n using Nat.base_induction 10 (by decide) generalizing rest with
  | single m hm =>
    rw [Nat.toDigits_of_lt_base hm]
    have hle : ¬ maxPart < m := by unfold maxPart; omega
    simp [digitsFrom, Nat.isDigit_digitChar, hm, Nat.toNat_digitChar_sub_48_of_lt_ten hm, hle]
  | digit m k hk hm ih =>
    -- the first digits are read as `m`, which is not zero, then the last one
    rw [← Nat.toDigits_append_toDigits (by decide) hm hk, List.append_assoc,
      ih (by omega) _, Nat.toDigits_of_lt_base hk]
    have hm0 : m ≠ 0 := by omega
    have hle : ¬ maxPart < 10 * m + k := by omega
    simp [digitsFrom, Nat.isDigit_digitChar, hk, hm0, Nat.toNat_digitChar_sub_48_of_lt_ten hk, hle]

/-- A number's decimal digits, followed by a text that does not start with a digit, are read as
that number. -/
theorem number_toDigits (p : VersionPart) {n : Nat} (hn : n ≤ maxPart) {rest : List Char}
    (hr : ∀ c cs, rest = c :: cs → c.isDigit = false) :
    number p (Nat.toDigits 10 n ++ rest) = .ok (n, rest) := by
  rw [number, digitsFrom_toDigits p hn, digitsFrom_stop p _ _ hr]
  simp [Nat.length_toDigits_pos, bind, Except.bind, pure, Except.pure]

/-- Three numbers in range, written in decimal and joined by dots, are read as the version of
those numbers, with no pre-release and no build metadata. -/
theorem parse_numbers {major minor patch : Nat} (h1 : major ≤ maxPart) (h2 : minor ≤ maxPart)
    (h3 : patch ≤ maxPart) :
    parse (toString major ++ "." ++ toString minor ++ "." ++ toString patch) =
      .ok ⟨major, minor, patch, "", ""⟩ := by
  have hdot : ∀ cs c cs', '.' :: cs = c :: cs' → c.isDigit = false := by
    intro cs c cs' h
    cases h
    rfl
  have hpatch : number .patch (Nat.toDigits 10 patch) = .ok (patch, []) := by
    have h : number .patch (Nat.toDigits 10 patch ++ []) = .ok (patch, []) :=
      number_toDigits .patch h3 fun c cs' h => nomatch h
    rwa [List.append_nil] at h
  unfold parse
  simp [String.toList_append, number_toDigits .major h1 (hdot _),
    number_toDigits .minor h2 (hdot _), hpatch, dot, bind, Except.bind, pure, Except.pure]

example : parse "1.0.0" = .ok ⟨1, 0, 0, "", ""⟩ := rfl

example : parse "" = .error .empty := rfl

end Version

end BuildRecipe
