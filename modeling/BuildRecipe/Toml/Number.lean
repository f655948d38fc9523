import BuildRecipe.Toml.Strings
import BuildRecipe.Decimal.Binary64
/-!
# TOML numbers and booleans

Integers are decimal (an optional sign, no leading zero), or hexadecimal, octal or binary
after `0x`, `0o`, `0b`; an underscore may stand between two digits. They must fit in 64
signed bits: a decimal one that does not is reported at its start as too large or too
small, a prefixed one as too large.

A float is a decimal integer part followed by a fraction, an exponent, or both, or `inf` or
`nan` with an optional sign. It is rounded to the nearest binary64 number; one that rounds
to positive infinity is refused at its start.

Main statements: decimal digits read back as the number they write (`decimalValue_toDigits`),
and so do the digits of any base up to ten (`radixValue_toDigits`).
-/

namespace BuildRecipe.Toml

open Reader

/-- `DIGIT`. -/
def isDigit (c : Char) : Bool := c.isDigit

/-- The number written by decimal digits. -/
def decimalValue (ds : List Char) : Nat := ds.foldl (fun n d => 10 * n + (d.toNat - '0'.toNat)) 0

/-- The number written by digits of a base. -/
def radixValue (base : Nat) (ds : List Char) : Nat :=
  ds.foldl (fun n d =>
    let v := if d.isDigit then d.toNat - '0'.toNat
      else if 'a' ≤ d && d ≤ 'f' then d.toNat - 'a'.toNat + 10
      else d.toNat - 'A'.toNat + 10
    base * n + v) 0

/-- Whether a number fits in 64 signed bits. -/
def fitsInt64 (n : Int) : Bool := -9223372036854775808 ≤ n && n < 9223372036854775808

/-- Digits of a class, an underscore allowed between two of them; the first digit is read by
`first`. -/
def digitsWithUnderscores (first : Reader Char) (isD : Char → Bool) : Reader Unit := do
  let _ ← first
  let _ ← many (orElse (do let _ ← satisfy isD)
    (do char '_'; let _ ← cut (expecting (.description "digit") (satisfy isD))))

/-- `dec-int = [ minus / plus ] unsigned-dec-int`, as the characters written. -/
def decInt : Reader (List Char) :=
  label "integer" do
    let (_, taken) ← withTaken do
      let _ ← optional (satisfy fun c => c == '+' || c == '-')
      orElse (digitsWithUnderscores (satisfy fun c => '1' ≤ c && c ≤ '9') isDigit)
        (do let _ ← satisfy isDigit)
    return taken

/-- Digits of a prefixed integer, after the prefix. -/
def prefixedDigits (pre : String) (what : String) (isD : Char → Bool) : Reader (List Char) :=
  label what do
    literal pre
    let (_, taken) ← withTaken (cut (digitsWithUnderscores (satisfy isD) isD))
    return taken

/-- The value of signed decimal text with underscores, when it fits in 64 bits. -/
def decimalInteger (cs : List Char) : Except Fault Int :=
  let ds := cs.filter (· != '_')
  let (neg, digits) := match ds with
    | '-' :: rest => (true, rest)
    | '+' :: rest => (false, rest)
    | rest => (false, rest)
  let n : Int := if neg then -(decimalValue digits : Int) else decimalValue digits
  if fitsInt64 n then .ok n else .error (if neg then .integerTooSmall else .integerTooLarge)

/-- The value of prefixed digits with underscores, when it fits in 64 bits. -/
def radixInteger (base : Nat) (cs : List Char) : Except Fault Int :=
  let n : Int := radixValue base (cs.filter (· != '_'))
  if fitsInt64 n then .ok n else .error .integerTooLarge

/-- A reading whose value is checked afterwards, all failures committed; a value that
breaks the rule fails at the start. -/
def checkedAtStart (r : Reader α) (rule : α → Except Fault β) : Reader β := cut (check r rule)

/-- `integer = dec-int / hex-int / oct-int / bin-int`. -/
def integer : Reader Int := do
  let two ← peekTwo?
  if two == some ('0', 'x') then
    checkedAtStart (prefixedDigits "0x" "hexadecimal integer" isHexDigit) (radixInteger 16)
  else if two == some ('0', 'o') then
    checkedAtStart (prefixedDigits "0o" "octal integer" fun c => '0' ≤ c && c ≤ '7')
      (radixInteger 8)
  else if two == some ('0', 'b') then
    checkedAtStart (prefixedDigits "0b" "binary integer" fun c => c == '0' || c == '1')
      (radixInteger 2)
  else fun c =>
    match decInt c with
    | .error f => .error f
    | .ok (cs, c') =>
      match decimalInteger cs with
      | .ok n => .ok (n, c')
      | .error x => .error { offset := c.offset, fault := some x, committed := true }

/-- `zero-prefixable-int = DIGIT *( DIGIT / underscore DIGIT )`. -/
def zeroPrefixableInt : Reader Unit := digitsWithUnderscores (satisfy isDigit) isDigit

/-- `frac = decimal-point zero-prefixable-int`. -/
def fraction : Reader Unit := do
  char '.'
  cut (expecting (.description "digit") zeroPrefixableInt)

/-- `exp = "e" float-exp-part`. -/
def exponent : Reader Unit := do
  let _ ← satisfy fun c => c == 'e' || c == 'E'
  let _ ← optional (satisfy fun c => c == '+' || c == '-')
  cut zeroPrefixableInt

/-- The text of a float with a fraction or an exponent. -/
def floatText : Reader (List Char) := do
  let (_, taken) ← withTaken do
    let _ ← decInt
    orElse exponent (do fraction; let _ ← optional exponent)
  return taken

/-- The parts of float text without underscores: sign, digits, and the power of ten. -/
def floatParts (cs : List Char) : Bool × Nat × Int :=
  let ds := cs.filter (· != '_')
  let (neg, body) := match ds with
    | '-' :: rest => (true, rest)
    | '+' :: rest => (false, rest)
    | rest => (false, rest)
  let mantissa := body.takeWhile fun c => c != 'e' && c != 'E'
  let expText := (body.dropWhile fun c => c != 'e' && c != 'E').drop 1
  let intPart := mantissa.takeWhile (· != '.')
  let fracPart := (mantissa.dropWhile (· != '.')).drop 1
  let (expNeg, expDigits) := match expText with
    | '-' :: rest => (true, rest)
    | '+' :: rest => (false, rest)
    | rest => (false, rest)
  let e : Int := if expNeg then -(decimalValue expDigits : Int) else decimalValue expDigits
  (neg, decimalValue (intPart ++ fracPart), e - fracPart.length)

/-- The binary64 number nearest to float text; positive infinity breaks the rule. -/
def floatValue (cs : List Char) : Except Fault Decimal.Binary64 :=
  let (neg, d, k) := floatParts cs
  let m := Decimal.ofDecimal d k
  if !neg && m == .infinite then .error .outOfRange else .ok ⟨neg, m⟩

/-- `inf`. -/
def infinity : Reader Decimal.Binary64 := do literal "inf"; return ⟨false, .infinite⟩

/-- `nan`. -/
def notANumber : Reader Decimal.Binary64 := do literal "nan"; return ⟨false, .nan⟩

/-- `special-float = [ minus / plus ] ( inf / nan )`. -/
def specialFloat : Reader Decimal.Binary64 := do
  let sign ← optional (satisfy fun c => c == '+' || c == '-')
  let x ← orElse infinity notANumber
  return { x with negative := sign == some '-' }

/-- `float`, labelled. An overflow is a committed failure at the start, without a fault. -/
def float : Reader Decimal.Binary64 :=
  label "floating-point number" <|
    orElse (fun c =>
      match floatText c with
      | .error f => .error f
      | .ok (cs, c') =>
        match floatValue cs with
        | .ok x => .ok (x, c')
        | .error _ => .error { offset := c.offset, committed := true })
      specialFloat

/-- `true`, once its first letter is seen. -/
def trueValue : Reader Bool := do
  let _ ← lookAhead (char 't')
  cut (literal "true")
  return true

/-- `false`, once its first letter is seen. -/
def falseValue : Reader Bool := do
  let _ ← lookAhead (char 'f')
  cut (literal "false")
  return false

/-- Decimal digits read back as the number they write. -/
theorem decimalValue_toDigits (n : Nat) : decimalValue (Nat.toDigits 10 n) = n :=
  Nat.ofDigitChars_ten_toDigits

/-- The digits of a base up to ten read back as the number they write: binary and octal
integers are read as written. -/
theorem radixValue_toDigits {base : Nat} (h1 : 1 < base) (h10 : base ≤ 10) (n : Nat) :
    radixValue base (Nat.toDigits base n) = n := by
  have hdigits : ∀ c ∈ Nat.toDigits base n, c.isDigit :=
    fun _ hc => Nat.isDigit_of_mem_toDigits (by omega) h10 hc
  calc radixValue base (Nat.toDigits base n)
      = Nat.ofDigitChars base (Nat.toDigits base n) 0 := by
        -- every digit is a decimal one, read as its value in either fold
        unfold radixValue Nat.ofDigitChars
        generalize Nat.toDigits base n = ds at hdigits
        generalize 0 = init
        induction ds generalizing init with
        | nil => rfl
        | cons c ds ih =>
          simp only [List.foldl_cons, hdigits c List.mem_cons_self, if_true]
          exact ih (fun c hc => hdigits c (List.mem_cons_of_mem _ hc)) _
    _ = n := Nat.ofDigitChars_toDigits h1 h10

example : decimalValue ['4', '2'] = 42 ∧ radixValue 16 "ff".toList = 255 := by decide

end BuildRecipe.Toml
