import BuildRecipe.Text.Bytes
/-!
# Integers written in text

The shell and its tools read integers the way the C library's `strtoimax` and `strtoumax` do:
blanks first are passed, then an optional sign, then digits of a base. With base 0 the text
chooses: `0x` or `0X` before a hexadecimal digit is base 16, a leading `0` base 8, anything
else base 10. A value beyond the 64-bit range is held at the nearest end and marks the reading
as out of range. A text with no digit reads as zero with nothing taken.

Unsigned reading takes a minus sign as negation modulo 2^64.

Main statements: the digits of the base at the front of a text are all read and no more
(`takeDigits_append`), and a signed reading is held within the 64-bit range exactly when it was
outside it (`clampSigned_range`).
-/

namespace BuildRecipe.Shell

/-- The largest signed 64-bit value. -/
def int64Max : Int := 9223372036854775807

/-- The smallest signed 64-bit value. -/
def int64Min : Int := -9223372036854775808

/-- The number of unsigned 64-bit values. -/
def word64 : Nat := 18446744073709551616

/-- Whether a byte is blank for the C library: space, tab, newline, vertical tab, form feed,
carriage return. -/
def isCSpace (c : Char) : Bool :=
  c == ' ' || c == '\t' || c == '\n' || c == '\x0b' || c == '\x0c' || c == '\r'

/-- The value of a digit in bases up to 36. -/
def digitValue (c : Char) : Option Nat :=
  if c.isDigit then some (c.toNat - 48)
  else if 'a' ≤ c && c ≤ 'z' then some (c.toNat - 87)
  else if 'A' ≤ c && c ≤ 'Z' then some (c.toNat - 55)
  else none

/-- The digits of a base at the front of a text and their value. -/
def takeDigits (base : Nat) : List Char → Nat → List Char × Nat × Nat
  | c :: rest, acc =>
    match digitValue c with
    | some d =>
      if d < base then
        let (after, v, n) := takeDigits base rest (acc * base + d)
        (after, v, n + 1)
      else (c :: rest, acc, 0)
    | none => (c :: rest, acc, 0)
  | [], acc => ([], acc, 0)

/-- What reading an integer found: the value as an unbounded integer with its sign, the text
after it, and whether any digit was read. -/
structure Scanned where
  value : Int
  rest : List Char
  converted : Bool
  deriving Repr, Inhabited

/-- Read an integer of a base (0 lets the text choose) at the front of a text. -/
def scanInteger (cs : List Char) (base : Nat) : Scanned :=
  let body := cs.dropWhile isCSpace
  let (negative, body) := match body with
    | '-' :: rest => (true, rest)
    | '+' :: rest => (false, rest)
    | _ => (false, body)
  let hexStart := match body with
    | '0' :: x :: d :: _ => (x == 'x' || x == 'X') && ((digitValue d).getD 99) < 16
    | _ => false
  let (base, digits) :=
    if (base == 0 || base == 16) && hexStart then (16, body.drop 2)
    else if base == 0 then (if body.head? == some '0' then 8 else 10, body)
    else (base, body)
  let (after, v, n) := takeDigits base digits 0
  if n == 0 then ⟨0, cs, false⟩
  else ⟨if negative then -(v : Int) else v, after, true⟩

/-- A signed reading held to the 64-bit range, and whether it had to be held. -/
def clampSigned (v : Int) : Int × Bool :=
  if v > int64Max then (int64Max, true)
  else if v < int64Min then (int64Min, true)
  else (v, false)

/-- An unsigned reading taken modulo 2^64 when negative and held below 2^64 otherwise, and
whether it had to be held. -/
def clampUnsigned (v : Int) : Nat × Bool :=
  if v.natAbs ≥ word64 then (word64 - 1, true)
  else if v < 0 then (word64 - v.natAbs, false)
  else (v.toNat, false)

/-- The text of a signed integer in decimal. -/
def intText (v : Int) : Bytes :=
  if v < 0 then "-" ++ Nat.repr v.natAbs else Nat.repr v.toNat

theorem takeDigits_stop {base : Nat} {rest : List Char}
    (hstop : ∀ c ∈ rest.head?, ∀ d, digitValue c = some d → base ≤ d) (acc : Nat) :
    takeDigits base rest acc = (rest, acc, 0) := by
  cases rest with
  | nil => rfl
  | cons c r =>
    unfold takeDigits
    cases hc : digitValue c with
    | none => rfl
    | some d =>
      have := hstop c rfl d hc
      simp only [Nat.not_lt.mpr this, if_false]

/-- The digits of the base at the front of a text are all read, and no more: the value is
theirs in that base after what was read before, and the count is theirs. -/
theorem takeDigits_append {base : Nat} {ds rest : List Char}
    (hds : ∀ c ∈ ds, ∃ d, digitValue c = some d ∧ d < base)
    (hstop : ∀ c ∈ rest.head?, ∀ d, digitValue c = some d → base ≤ d) (acc : Nat) :
    takeDigits base (ds ++ rest) acc =
      (rest, ds.foldl (fun a c => a * base + (digitValue c).getD 0) acc, ds.length) := by
  induction ds generalizing acc with
  | nil => exact takeDigits_stop hstop acc
  | cons c ds ih =>
    obtain ⟨d, hc, hd⟩ := hds c List.mem_cons_self
    have hrest := ih (fun c hc => hds c (List.mem_cons_of_mem _ hc))
    simp only [List.cons_append, takeDigits, hc, hd, if_true, hrest, List.foldl_cons,
      Option.getD_some, List.length_cons]

/-- A signed reading is held within the 64-bit range, and it is held exactly when it was not
already there. -/
theorem clampSigned_range (v : Int) :
    int64Min ≤ (clampSigned v).1 ∧ (clampSigned v).1 ≤ int64Max ∧
      ((clampSigned v).2 = false ↔ int64Min ≤ v ∧ v ≤ int64Max) ∧
      ((clampSigned v).2 = false → (clampSigned v).1 = v) := by
  unfold clampSigned int64Min int64Max
  split
  · simp only [Bool.true_eq_false, false_iff, false_implies, and_true]
    omega
  · split
    · simp only [Bool.true_eq_false, false_iff, false_implies, and_true]
      omega
    · simp only [implies_true, and_true, true_iff]
      omega

example : (scanInteger " -0x1Fz".toList 0).value = -31 ∧
    (scanInteger " -0x1Fz".toList 0).rest = ['z'] := by
  decide

example : (scanInteger [] 10).converted = false ∧
    clampSigned 18446744073709551616 = (int64Max, true) := by
  decide

end BuildRecipe.Shell
