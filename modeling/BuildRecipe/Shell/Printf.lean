import BuildRecipe.Shell.Number
import BuildRecipe.Decimal.Binary64
/-!
# Formatted output

`printf FORMAT ARG...` writes its format with each conversion replaced by the next argument,
and uses the format again while arguments are left (at least one taken each time round).

* Escapes of the format: `\\ \a \b \e \f \n \r \t \v` and one to three octal digits; any other
  `\` is itself. `%%` is `%`.
* A conversion is `%`, flags from `#-+ 0`, a width, a precision after `.`, each maybe `*`
  (taken from the next argument), and one of `b c s d i o u x X e E f F g G a A`; any other
  letter is an invalid directive.
* `%s` pads by bytes and cuts at the precision; `%c` writes the first byte of its argument;
  `%b` writes its argument with the escapes of `echo`, where `\c` ends all output and
  `\0` may lead an octal number.
* An integer argument is read as `strtoimax` reads with base 0; a leading quote makes it the
  value of the next byte. Text left after the number is a warning `ARG: not completely
  converted`, no number at all `ARG: expected numeric value`, too large a value `ARG:
  Numerical result out of range`; each makes the status 1.
* A floating argument is read to the nearest binary64 number and written from its exact value,
  rounded to the precision with a tie to the even digit: `%f` with fixed places, `%e` with an
  exponent of at least two digits, `%g` with the shorter of the two by the C rules.

Main statement: a format with neither an escape nor a conversion is written as it is, once,
whatever the arguments (`formatOutput_plain`).
-/

namespace BuildRecipe.Shell

open BuildRecipe.Decimal

/-- Whether a byte is an octal digit. -/
def isOctal (c : Char) : Bool := '0' ≤ c && c ≤ '7'

/-- Up to `n` octal digits at the front of a text, their value, and the text after them. -/
def octalPrefix : Nat → List Char → Nat → Nat × List Char
  | 0, cs, acc => (acc, cs)
  | n + 1, c :: rest, acc =>
    if isOctal c then octalPrefix n rest (acc * 8 + (c.toNat - 48)) else (acc, c :: rest)
  | _ + 1, [], acc => (acc, [])

/-- The escape at the front of a text after a `\`: the byte it stands for and the text after
it. A `\` before anything else stands for itself, and nothing after it is taken. -/
def escapeAt (cs : List Char) : Char × List Char :=
  match cs with
  | '\\' :: rest => ('\\', rest)
  | 'a' :: rest => ('\x07', rest)
  | 'b' :: rest => ('\x08', rest)
  | 'e' :: rest => ('\x1b', rest)
  | 'f' :: rest => ('\x0c', rest)
  | 'n' :: rest => ('\n', rest)
  | 'r' :: rest => ('\r', rest)
  | 't' :: rest => ('\t', rest)
  | 'v' :: rest => ('\x0b', rest)
  | c :: _ =>
    if isOctal c then
      let (v, rest) := octalPrefix 3 cs 0
      (Char.ofNat (v % 256), rest)
    else ('\\', cs)
  | [] => ('\\', [])

/-- The text of an argument of `echo` or `%b` with its escapes replaced: the bytes up to a NUL
an escape makes, and whether `\c` ended all output. -/
def echoEscapes : Nat → List Char → List Char × Bool
  | 0, _ => ([], false)
  | _ + 1, [] => ([], false)
  | fuel + 1, '\\' :: rest =>
    match rest with
    | 'c' :: _ => ([], true)
    | _ =>
      let rest := match rest with
        | '0' :: d :: more => if isOctal d then d :: more else rest
        | _ => rest
      let (c, after) := escapeAt rest
      if c == '\x00' then ([], false)
      else
        let (more, stop) := echoEscapes fuel after
        (c :: more, stop)
  | fuel + 1, c :: rest =>
    let (more, stop) := echoEscapes fuel rest
    (c :: more, stop)

/-- The flags, width, precision and letter of a conversion. -/
structure Conversion where
  left : Bool := false
  plus : Bool := false
  space : Bool := false
  zero : Bool := false
  alt : Bool := false
  width : Option Nat := none
  precision : Option Nat := none
  letter : Char := 's'
  deriving DecidableEq, Repr, Inhabited

namespace Conversion

/-- A field padded to the width: `sign` and `body` with spaces in front or behind, or zeros
between them when `zeros`. -/
def pad (cv : Conversion) (sign body : List Char) (zeros : Bool) : List Char :=
  let len := sign.length + body.length
  let w := cv.width.getD 0
  if w ≤ len then sign ++ body
  else if cv.left then sign ++ body ++ List.replicate (w - len) ' '
  else if zeros then sign ++ List.replicate (w - len) '0' ++ body
  else List.replicate (w - len) ' ' ++ sign ++ body

/-- A text written by `%s`: cut at the precision, then padded. -/
def text (cv : Conversion) (s : List Char) : List Char :=
  let s := match cv.precision with
    | some p => s.take p
    | none => s
  cv.pad [] s false

/-- The sign of a signed conversion. -/
def signOf (cv : Conversion) (negative : Bool) : List Char :=
  if negative then ['-'] else if cv.plus then ['+'] else if cv.space then [' '] else []

/-- Digits made at least as many as the precision; precision 0 writes nothing for 0. -/
def digitsTo (cv : Conversion) (digits : List Char) (isZero : Bool) : List Char :=
  match cv.precision with
  | some 0 => if isZero then [] else digits
  | some p => List.replicate (p - digits.length) '0' ++ digits
  | none => digits

/-- A signed integer written by `%d` or `%i`. -/
def signed (cv : Conversion) (v : Int) : List Char :=
  let digits := cv.digitsTo (Nat.toDigits 10 v.natAbs) (v == 0)
  cv.pad (cv.signOf (v < 0)) digits (cv.zero && cv.precision.isNone)

/-- An unsigned integer written by `%o`, `%u`, `%x` or `%X`. -/
def unsigned (cv : Conversion) (v : Nat) : List Char :=
  let (base, upper) := match cv.letter with
    | 'o' => (8, false)
    | 'x' => (16, false)
    | 'X' => (16, true)
    | _ => (10, false)
  let raw := (Nat.toDigits base v).map fun c => if upper then c.toUpper else c
  let digits := cv.digitsTo raw (v == 0)
  let digits := if cv.alt && base == 8 && digits.head? != some '0' then '0' :: digits else digits
  let pre := if cv.alt && base == 16 && v != 0 then (if upper then ['0', 'X'] else ['0', 'x'])
    else []
  cv.pad pre digits (cv.zero && cv.precision.isNone)

end Conversion

-- ============================================================================
-- Floating numbers
-- ============================================================================

/-- Whether `num / den ≥ 10^x`. -/
def atLeastTenPow (num den : Nat) (x : Int) : Bool :=
  if 0 ≤ x then decide (den * Nat.pow 10 x.toNat ≤ num)
  else decide (den ≤ num * Nat.pow 10 (-x).toNat)

/-- The exponent `x` with `10^x ≤ num / den < 10^(x+1)`, for a positive ratio. -/
def tenExponent (num den : Nat) : Int :=
  let guess : Int := ((Nat.toDigits 10 num).length : Int) - ((Nat.toDigits 10 den).length : Int)
  if atLeastTenPow num den guess then guess else guess - 1

/-- `num / den · 10^k` rounded to a whole number, a tie to the even one. -/
def scaledRound (num den : Nat) (k : Int) : Nat :=
  if 0 ≤ k then divRoundEven (num * Nat.pow 10 k.toNat) den
  else divRoundEven num (den * Nat.pow 10 (-k).toNat)

/-- The digits of a whole number, at least `n` of them. -/
def digitsAtLeast (v n : Nat) : List Char :=
  let ds := Nat.toDigits 10 v
  List.replicate (n - ds.length) '0' ++ ds

/-- A ratio written with `p` places: the digits before the point and those after. -/
def fixedDigits (num den p : Nat) : List Char × List Char :=
  let ds := digitsAtLeast (scaledRound num den p) (p + 1)
  (ds.take (ds.length - p), ds.drop (ds.length - p))

/-- A positive ratio written with `p` digits after the first: those digits and the exponent. -/
def scientificDigits (num den p : Nat) : List Char × Int :=
  if num == 0 then (List.replicate (p + 1) '0', 0)
  else
    let x := tenExponent num den
    let n := scaledRound num den ((p : Int) - x)
    if n ≥ Nat.pow 10 (p + 1) then (Nat.toDigits 10 (scaledRound num den ((p : Int) - (x + 1))), x + 1)
    else (digitsAtLeast n (p + 1), x)

/-- Digits with a point, the point kept only when there are digits after it or `alt`. -/
def withPoint (whole frac : List Char) (alt : Bool) : List Char :=
  if frac.isEmpty && !alt then whole else whole ++ ['.'] ++ frac

/-- An exponent as `e+05`: a sign and at least two digits. -/
def exponentText (letter : Char) (x : Int) : List Char :=
  letter :: (if x < 0 then '-' else '+') :: digitsAtLeast x.natAbs 2

/-- The digits after the point without trailing zeros. -/
def trimFraction (frac : List Char) : List Char := (frac.reverse.dropWhile (· == '0')).reverse

/-- A finite magnitude written by `%e`, `%f` or `%g` (the letter given), without its sign. -/
def floatBody (cv : Conversion) (num den : Nat) : List Char :=
  let upper := cv.letter.isUpper
  let e := if upper then 'E' else 'e'
  let p := cv.precision.getD 6
  match cv.letter.toLower with
  | 'f' =>
    let (w, f) := fixedDigits num den p
    withPoint w f cv.alt
  | 'e' =>
    let (ds, x) := scientificDigits num den p
    withPoint (ds.take 1) (ds.drop 1) cv.alt ++ exponentText e x
  | _ =>
    let p := if p == 0 then 1 else p
    let (_, x) := scientificDigits num den (p - 1)
    if x < (p : Int) && x ≥ -4 then
      let places := ((p : Int) - 1 - x).toNat
      let (w, f) := fixedDigits num den places
      withPoint w (if cv.alt then f else trimFraction f) cv.alt
    else
      let (ds, x) := scientificDigits num den (p - 1)
      let frac := ds.drop 1
      withPoint (ds.take 1) (if cv.alt then frac else trimFraction frac) cv.alt ++ exponentText e x

/-- A binary64 number written by a floating conversion. -/
def Conversion.float (cv : Conversion) (x : Binary64) : List Char :=
  let sign := cv.signOf x.negative
  match x.magnitude with
  | .infinite => cv.pad sign (if cv.letter.isUpper then "INF".toList else "inf".toList) false
  | .nan => cv.pad sign (if cv.letter.isUpper then "NAN".toList else "nan".toList) false
  | .finite m e =>
    let (num, den) := scaledByTwo m e
    cv.pad sign (floatBody cv num den) (cv.zero && !cv.left)

/-- What reading a floating number found: the number, the text after it, whether anything was
read, and whether the value was out of range. -/
structure ScannedFloat where
  value : Binary64
  rest : List Char
  converted : Bool
  outOfRange : Bool

/-- Whether a text starts with a word, letters compared without case. -/
def startsWithWord (cs : List Char) (w : String) : Bool :=
  (cs.take w.length).map Char.toLower == w.toList

/-- Read a floating number at the front of a text as `strtod` does: blanks, a sign, then
`inf`, `infinity`, `nan`, or decimal digits with a point and an exponent. -/
def scanFloat (cs : List Char) : ScannedFloat :=
  let body := cs.dropWhile isCSpace
  let (negative, body) := match body with
    | '-' :: rest => (true, rest)
    | '+' :: rest => (false, rest)
    | _ => (false, body)
  if startsWithWord body "infinity" then ⟨⟨negative, .infinite⟩, body.drop 8, true, false⟩
  else if startsWithWord body "inf" then ⟨⟨negative, .infinite⟩, body.drop 3, true, false⟩
  else if startsWithWord body "nan" then ⟨⟨negative, .nan⟩, body.drop 3, true, false⟩
  else
    let whole := body.takeWhile Char.isDigit
    let afterWhole := body.drop whole.length
    let (frac, afterFrac) := match afterWhole with
      | '.' :: more => (more.takeWhile Char.isDigit, more.dropWhile Char.isDigit)
      | _ => ([], afterWhole)
    let hasPoint := afterWhole.head? == some '.'
    if whole.isEmpty && frac.isEmpty then ⟨⟨false, .finite 0 minExponent⟩, cs, false, false⟩
    else
      let afterNumber := if hasPoint then afterFrac else afterWhole
      let (expo, rest) : Int × List Char := match afterNumber with
        | e :: more =>
          if e == 'e' || e == 'E' then
            let (eneg, digits) := match more with
              | '-' :: d => (true, d)
              | '+' :: d => (false, d)
              | d => (false, d)
            let ds := digits.takeWhile Char.isDigit
            if ds.isEmpty then (0, afterNumber)
            else
              let v : Nat := ds.foldl (fun acc c => acc * 10 + (c.toNat - 48)) 0
              (if eneg then -(v : Int) else v, digits.drop ds.length)
          else (0, afterNumber)
        | [] => (0, [])
      let d := (whole ++ frac).foldl (fun acc c => acc * 10 + (c.toNat - 48)) 0
      let k := expo - frac.length
      let mag := ofDecimal d k
      let overflow := match mag with
        | .infinite => true
        | .finite 0 _ => d != 0
        | _ => false
      ⟨⟨negative, mag⟩, rest, true, overflow⟩

-- ============================================================================
-- The format
-- ============================================================================

/-- What one round of the format gives: the bytes written, the warnings, the arguments left,
and how it ended. -/
inductive FormatEnd where
  /-- The format was used up. -/
  | done
  /-- `\c` of a `%b` argument ended all output. -/
  | stopped
  /-- A fault that ends the command: its message. -/
  | failed (message : Bytes)
  deriving DecidableEq, Repr, Inhabited

/-- The state of formatting: output so far (last first), warnings, arguments left. -/
structure Formatting where
  out : List Char := []
  warnings : List Bytes := []
  args : List Bytes

namespace Formatting

/-- The formatting with bytes written. -/
def put (f : Formatting) (cs : List Char) : Formatting := { f with out := cs.reverse ++ f.out }

/-- The next argument as text, empty when none is left. -/
def nextText (f : Formatting) : Bytes × Formatting :=
  match f.args with
  | a :: rest => (a, { f with args := rest })
  | [] => ("", f)

/-- The warning for an argument read as a number. -/
def checkNumber (f : Formatting) (arg : Bytes) (rest : List Char) (converted overflow : Bool) :
    Formatting :=
  if !rest.isEmpty then
    { f with warnings := f.warnings ++
      [arg ++ (if converted then ": not completely converted" else ": expected numeric value")] }
  else if overflow then
    { f with warnings := f.warnings ++ [arg ++ ": Numerical result out of range"] }
  else f

/-- The next argument as a signed integer. -/
def nextInt (f : Formatting) : Int × Formatting :=
  match f.args with
  | [] => (0, f)
  | a :: rest =>
    let f := { f with args := rest }
    match a.toList with
    | q :: more =>
      if q == '\'' || q == '"' then ((more.head?.map Char.toNat).getD 0, f)
      else
        let s := scanInteger (q :: more) 0
        let (v, overflow) := clampSigned s.value
        (v, f.checkNumber a s.rest s.converted overflow)
    | [] => (0, f)

/-- The next argument as an unsigned integer. -/
def nextNat (f : Formatting) : Nat × Formatting :=
  match f.args with
  | [] => (0, f)
  | a :: rest =>
    let f := { f with args := rest }
    match a.toList with
    | q :: more =>
      if q == '\'' || q == '"' then ((more.head?.map Char.toNat).getD 0, f)
      else
        let s := scanInteger (q :: more) 0
        let (v, overflow) := clampUnsigned s.value
        (v, f.checkNumber a s.rest s.converted overflow)
    | [] => (0, f)

/-- The next argument as a floating number. -/
def nextFloat (f : Formatting) : Binary64 × Formatting :=
  match f.args with
  | [] => (⟨false, .finite 0 minExponent⟩, f)
  | a :: rest =>
    let f := { f with args := rest }
    match a.toList with
    | q :: more =>
      if q == '\'' || q == '"' then
        (⟨false, ofDecimal ((more.head?.map Char.toNat).getD 0) 0⟩, f)
      else
        let s := scanFloat (q :: more)
        (s.value, f.checkNumber a s.rest s.converted s.outOfRange)
    | [] => (⟨false, .finite 0 minExponent⟩, f)

end Formatting

/-- The flags of a conversion, read from the front of its text. -/
def readFlags (cv : Conversion) : List Char → Conversion × List Char
  | '-' :: rest => readFlags { cv with left := true } rest
  | '+' :: rest => readFlags { cv with plus := true } rest
  | ' ' :: rest => readFlags { cv with space := true } rest
  | '0' :: rest => readFlags { cv with zero := true } rest
  | '#' :: rest => readFlags { cv with alt := true } rest
  | cs => (cv, cs)

/-- A width or precision: `*` takes the next argument, digits give the number. -/
def readCount (f : Formatting) (cs : List Char) : Option Int × List Char × Formatting :=
  match cs with
  | '*' :: rest =>
    let (v, f) := f.nextInt
    (some v, rest.dropWhile fun c => c.isDigit || c == '*', f)
  | _ =>
    let ds := cs.takeWhile Char.isDigit
    let rest := (cs.drop ds.length).dropWhile fun c => c.isDigit || c == '*'
    if ds.isEmpty then (none, rest, f)
    else (some (ds.foldl (fun acc c => acc * 10 + (c.toNat - 48 : Nat)) (0 : Nat)), rest, f)

/-- One conversion after its `%`: the formatting after it, the format left, and how it ended
when it ends the round. -/
def convert (f : Formatting) (spec : List Char) :
    Formatting × List Char × Option FormatEnd :=
  let (cv, cs) := readFlags {} spec
  let (width, cs, f) := readCount f cs
  -- a negative width taken from an argument means left-justified
  let cv := match width with
    | some w => if w < 0 then { cv with left := true, width := some w.natAbs }
      else { cv with width := some w.toNat }
    | none => cv
  let (precision, cs, f) : Option Int × List Char × Formatting := match cs with
    | '.' :: rest =>
      let (p, rest, f) := readCount f rest
      (some (p.getD 0), rest, f)
    | _ => (none, cs, f)
  let cv := match precision with
    | some p => if p < 0 then cv else { cv with precision := some p.toNat }
    | none => cv
  let start := spec.take (spec.length - cs.length)
  match cs with
  | [] => (f, [], some (.failed "missing format character"))
  | c :: rest =>
    let cv := { cv with letter := c }
    if c == 's' then
      let (a, f) := f.nextText
      (f.put (cv.text a.toList), rest, none)
    else if c == 'b' then
      let (a, f) := f.nextText
      let (text, stop) := echoEscapes (a.length + 1) a.toList
      let f := f.put (cv.text text)
      (f, rest, if stop then some .stopped else none)
    else if c == 'c' then
      let (a, f) := f.nextText
      (f.put (cv.pad [] [(a.toList.head?).getD '\x00'] false), rest, none)
    else if c == 'd' || c == 'i' then
      let (v, f) := f.nextInt
      (f.put (cv.signed v), rest, none)
    else if c == 'o' || c == 'u' || c == 'x' || c == 'X' then
      let (v, f) := f.nextNat
      (f.put (cv.unsigned v), rest, none)
    else if "eEfFgG".toList.contains c then
      let (v, f) := f.nextFloat
      (f.put (cv.float v), rest, none)
    else (f, rest, some (.failed ("%" ++ String.ofList (start ++ [c]) ++ ": invalid directive")))

/-- One round of the format: each byte written, escapes replaced, conversions filled. -/
def formatRound : Nat → Formatting → List Char → Formatting × FormatEnd
  | 0, f, _ => (f, .done)
  | _ + 1, f, [] => (f, .done)
  | fuel + 1, f, '\\' :: rest =>
    let (c, after) := escapeAt rest
    formatRound fuel (f.put [c]) after
  | fuel + 1, f, '%' :: '%' :: rest => formatRound fuel (f.put ['%']) rest
  | fuel + 1, f, '%' :: rest =>
    match convert f rest with
    | (f, _, some e) => (f, e)
    | (f, after, none) => formatRound fuel f after
  | fuel + 1, f, c :: rest => formatRound fuel (f.put [c]) rest

/-- Rounds of the format while arguments are left and the last round took some. -/
def formatRounds : Nat → Formatting → List Char → Formatting × FormatEnd
  | 0, f, _ => (f, .done)
  | fuel + 1, f, format =>
    let before := f.args.length
    match formatRound (format.length + 1) f format with
    | (f, .done) =>
      if !f.args.isEmpty && f.args.length < before then formatRounds fuel f format
      else (f, .done)
    | r => r

/-- What `printf` writes for a format and arguments: the output, the warnings, and how it
ended. -/
def formatOutput (format : Bytes) (args : List Bytes) : Bytes × List Bytes × FormatEnd :=
  let (f, e) := formatRounds (args.length + 1) { args } format.toList
  (String.ofList f.out.reverse, f.warnings, e)

/-- A byte other than `\` is copied as it is. -/
theorem echoEscapes_cons {c : Char} (hc : c ≠ '\\') (n : Nat) (rest : List Char) :
    echoEscapes (n + 1) (c :: rest) =
      ((c :: (echoEscapes n rest).1), (echoEscapes n rest).2) := by
  rw [echoEscapes.eq_def]
  split <;> simp_all

/-- A text without backslashes is copied as it is by `echo` and `%b`. -/
theorem echoEscapes_plain {cs : List Char} (h : '\\' ∉ cs) :
    ∀ {fuel}, cs.length < fuel → echoEscapes fuel cs = (cs, false) := by
  induction cs with
  | nil =>
    intro fuel hf
    obtain ⟨f, rfl⟩ : ∃ f, fuel = f + 1 := ⟨fuel - 1, by simp at hf; omega⟩
    rfl
  | cons c rest ih =>
    intro fuel hf
    obtain ⟨f, rfl⟩ : ∃ f, fuel = f + 1 := ⟨fuel - 1, by simp at hf; omega⟩
    have hc : c ≠ '\\' := fun hc => h (hc ▸ List.mem_cons_self)
    simp only [List.length_cons] at hf
    rw [echoEscapes_cons hc, ih (fun hr => h (List.mem_cons_of_mem _ hr)) (by omega)]

theorem put_cons (f : Formatting) (c : Char) (cs : List Char) :
    (f.put [c]).put cs = f.put (c :: cs) := by
  simp [Formatting.put]

/-- A byte that is neither `\` nor `%` is written as it is. -/
theorem formatRound_cons {c : Char} (hcb : c ≠ '\\') (hcp : c ≠ '%') (n : Nat) (f : Formatting)
    (rest : List Char) : formatRound (n + 1) f (c :: rest) = formatRound n (f.put [c]) rest := by
  rw [formatRound.eq_def]
  split <;> simp_all

/-- A round over bytes that are neither `\` nor `%` writes them and takes no argument. -/
theorem formatRound_plain {cs : List Char} (hb : '\\' ∉ cs) (hp : '%' ∉ cs) :
    ∀ {fuel f}, cs.length < fuel → formatRound fuel f cs = (f.put cs, .done) := by
  induction cs with
  | nil =>
    intro fuel f hf
    obtain ⟨n, rfl⟩ : ∃ n, fuel = n + 1 := ⟨fuel - 1, by simp at hf; omega⟩
    simp [formatRound, Formatting.put]
  | cons c rest ih =>
    intro fuel f hf
    obtain ⟨n, rfl⟩ : ∃ n, fuel = n + 1 := ⟨fuel - 1, by simp at hf; omega⟩
    have hcb : c ≠ '\\' := fun h => hb (h ▸ List.mem_cons_self)
    have hcp : c ≠ '%' := fun h => hp (h ▸ List.mem_cons_self)
    simp only [List.length_cons] at hf
    rw [formatRound_cons hcb hcp]
    simp only [ih (fun h => hb (List.mem_cons_of_mem _ h)) (fun h => hp (List.mem_cons_of_mem _ h))
      (by omega : rest.length < n), put_cons]

/-- A format with neither an escape nor a conversion is written as it is, once, whatever the
arguments, with no warning. -/
theorem formatOutput_plain {format : Bytes} (hb : '\\' ∉ format.toList) (hp : '%' ∉ format.toList)
    (args : List Bytes) : formatOutput format args = (format, [], .done) := by
  have hround : formatRound (format.toList.length + 1) { args } format.toList =
      (({ args } : Formatting).put format.toList, .done) :=
    formatRound_plain hb hp (Nat.lt_succ_self _)
  simp [formatOutput, formatRounds, hround, Formatting.put]

example : formatOutput "hello" [] = ("hello", [], .done) := by
  decide +kernel

end BuildRecipe.Shell
