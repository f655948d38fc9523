import BuildRecipe.Utility.Basic
import BuildRecipe.Shell.Printf
/-!
# Sequences of numbers

`seq [-s SEP] [-w] [-f FORMAT] [FIRST [INCREMENT]] LAST` writes the numbers from FIRST (1 by
default) by INCREMENT (1 by default) up to LAST, or down to it when the increment is negative,
separated by SEP (a newline by default) and ended by a newline.

The numbers are decimals, with a fraction and an exponent if wanted, and the sequence is
computed exactly. Each is written with as many fraction digits as FIRST or INCREMENT has (an
exponent moves the point), zero-padded to the width of the widest of FIRST and LAST under
`-w`, or through the one `%e`, `%f` or `%g` conversion of FORMAT.

Main statements: the terms of a sequence are the first number and its steps that do not pass the
last, counting up (`stepCount_up`) or down (`stepCount_down`).
-/

namespace BuildRecipe.Utilities

/-- A number given to `seq`: its value as a whole number of units of `10 ^ -scale`, the fraction
digits it is written with, and the width it takes when written so. -/
structure SeqNumber where
  units : Int
  scale : Nat
  precision : Nat
  width : Nat
  deriving DecidableEq, Repr, Inhabited

/-- A number of `seq`'s arguments, or none when the text is not one. -/
def readSeqNumber (t : Bytes) : Option SeqNumber :=
  let cs := t.toList
  let (neg, body) := match cs with
    | '-' :: rest => (true, rest)
    | '+' :: rest => (false, rest)
    | _ => (false, cs)
  let whole := body.takeWhile Char.isDigit
  let rest := body.drop whole.length
  let (point, frac, rest) := match rest with
    | '.' :: more => (true, more.takeWhile Char.isDigit, more.drop (more.takeWhile Char.isDigit).length)
    | _ => (false, [], rest)
  let expo : Option (Option Int) := match rest with
    | [] => some none
    | e :: more =>
      if e == 'e' || e == 'E' then
        let (eneg, ds) := match more with
          | '-' :: ds => (true, ds)
          | '+' :: ds => (false, ds)
          | ds => (false, ds)
        if !ds.isEmpty && ds.all Char.isDigit then
          let v : Int := (String.ofList ds).toNat!
          some (some (if eneg then -v else v))
        else none
      else none
  if whole.isEmpty && frac.isEmpty then none
  else
    match expo with
    | none => none
    | some ex =>
      let digits : Int := (String.ofList (whole ++ frac)).toNat!
      let digits := if neg then -digits else digits
      let e := ex.getD 0
      -- the value is digits * 10^(e - frac.length)
      let shift : Int := e - frac.length
      let (units, scale) : Int × Nat :=
        if shift ≥ 0 then (digits * Int.pow 10 shift.toNat, 0) else (digits, (-shift).toNat)
      -- the fraction digits it is written with, and its width
      let fracLen := frac.length
      let precision := if e < 0 then fracLen + (-e).toNat else fracLen - min fracLen e.toNat
      let width0 : Int := cs.length
      let width1 : Int :=
        if point then
          if fracLen == 0 then width0 - 1
          else if whole.isEmpty then width0 + 1 else width0
        else width0
      let width : Int := match ex with
        | none => width1
        | some x =>
          let eText : Int := (rest.length : Int)
          let w := width1 - eText
          if x < 0 then
            let w := if point then (if frac.isEmpty then w + 1 else w) else w + 1
            w + (-x)
          else
            let w := if point && precision == 0 && x > 0 then w - 1 else w
            w + (x - min fracLen x.toNat)
      some ⟨units, scale, precision, width.toNat⟩

/-- A value in units of `10 ^ -scale` written with `precision` fraction digits, rounded half
away from zero when digits are dropped. -/
def fixedText (units : Int) (scale precision : Nat) : List Char :=
  let neg := units < 0
  let mag := units.natAbs
  let v : Nat :=
    if precision ≥ scale then mag * Nat.pow 10 (precision - scale)
    else
      let d := Nat.pow 10 (scale - precision)
      (mag + d / 2) / d
  let ds := (Nat.toDigits 10 v)
  let ds := List.replicate (precision + 1 - min (precision + 1) ds.length) '0' ++ ds
  let whole := ds.take (ds.length - precision)
  let frac := ds.drop (ds.length - precision)
  let body := if precision == 0 then whole else whole ++ '.' :: frac
  if neg && v != 0 then '-' :: body else body

/-- A text zero-padded after its sign to a width. -/
def zeroPadded (width : Nat) (cs : List Char) : List Char :=
  match cs with
  | '-' :: rest => '-' :: (List.replicate (width - cs.length) '0' ++ rest)
  | _ => List.replicate (width - cs.length) '0' ++ cs

/-- How many terms a sequence from `f` by `s` has before it passes `l`: none when `f` is past
`l` already, and none for a zero step. -/
def stepCount (f s l : Int) : Nat :=
  if s > 0 then (if l < f then 0 else ((l - f) / s).toNat + 1)
  else if s < 0 then (if l > f then 0 else ((f - l) / (-s)).toNat + 1)
  else 0

/-- The values of a sequence, in units of `10 ^ -scale`. -/
def sequenceValues (first step last : SeqNumber) : Nat × List Int :=
  let scale := max first.scale (max step.scale last.scale)
  let at_ (n : SeqNumber) : Int := n.units * Int.pow 10 (scale - n.scale)
  let f := at_ first
  let s := at_ step
  let l := at_ last
  (scale, (List.range (stepCount f s l)).map fun (i : Nat) => f + s * (i : Int))

/-- The text of a value in units of `10 ^ -scale`, as `seq` passes it to a format. -/
def valueText (units : Int) (scale : Nat) : Bytes := String.ofList (fixedText units scale scale)

/-- The conversions of a format of `seq -f`: none for a format with exactly one conversion
that takes a number, else the complaint. -/
def formatFault (fmt : Bytes) : Option Bytes :=
  let rec scan : Nat → List Char → Nat → Option Char → Nat × Option Char
    | 0, _, n, bad => (n, bad)
    | _ + 1, [], n, bad => (n, bad)
    | fuel + 1, '%' :: '%' :: rest, n, bad => scan fuel rest n bad
    | fuel + 1, '%' :: rest, n, bad =>
      let specs := rest.takeWhile fun c => "-+ #0'123456789.".toList.contains c
      match rest.drop specs.length with
      | c :: more =>
        let ok := "eEfFgGaA".toList.contains c
        scan fuel more (n + 1) (if ok || bad.isSome then bad else some c)
      | [] => (n + 1, bad)
    | fuel + 1, _ :: rest, n, bad => scan fuel rest n bad
  match scan (fmt.length + 1) fmt.toList 0 none with
  | (0, _) => some ("format " ++ quoted fmt ++ " has no % directive")
  | (1, some c) => some ("format " ++ quoted fmt ++ " has unknown %" ++ String.singleton c ++ " directive")
  | (1, none) => none
  | (_, _) => some ("format " ++ quoted fmt ++ " has too many % directives")

/-- The text of `seq` for its numbers and how to write them. -/
def sequenceText (first step last : SeqNumber) (sep : Bytes) (equal : Bool) (fmt : Option Bytes) :
    Bytes :=
  let (scale, values) := sequenceValues first step last
  let precision := max first.precision step.precision
  let width := if equal then
      let fw := first.width + (precision - min precision first.precision) +
        (if first.precision == 0 && precision > 0 then 1 else 0)
      let lw0 := last.width + precision - min precision last.precision
      let lw : Nat := if last.precision > 0 && precision == 0 then lw0 - 1
        else if last.precision == 0 && precision > 0 then lw0 + 1 else lw0
      max fw lw
    else 0
  let shown := values.map fun v =>
    match fmt with
    | some f => (Shell.formatOutput f [valueText v scale]).1
    | none => String.ofList (zeroPadded width (fixedText v scale precision))
  if shown.isEmpty then "" else sep.intercalate shown ++ "\n"

/-- The options of `seq`. -/
def seqTable : OptionTable where
  flags := ['w']
  valued := ['f', 's']
  long := [longOf "format" "f" .required, longOf "separator" "s" .required,
    longOf "equal-width" "w" .none] ++ commonLong

/-- `seq`. The arguments from the first that reads as a negative number on are operands. -/
def sequence (inv : Invocation) (files : FileTree) : Completion :=
  let isNegative (a : Bytes) : Bool := a.startsWith "-" && (readSeqNumber a).isSome
  let optionPart := inv.args.takeWhile fun a => !isNegative a
  let numberPart := inv.args.drop optionPart.length
  withOptions { inv with args := optionPart } files seqTable 1 fun r =>
  let operands := r.operands ++ numberPart
  let refuse (m : Bytes) := ended files 1 "" (usage inv.program m)
  let nums := operands.map fun a => (a, readSeqNumber a)
  match nums.find? (·.2.isNone) with
  | some (bad, _) => refuse ("invalid floating point argument: " ++ quoted bad)
  | none =>
    let one : SeqNumber := ⟨1, 0, 0, 1⟩
    let values := nums.filterMap (·.2)
    let picked : Except Bytes (SeqNumber × SeqNumber × SeqNumber) :=
      match values with
      | [] => .error "missing operand"
      | [l] => .ok (one, one, l)
      | [f, l] => .ok (f, one, l)
      | [f, s, l] => .ok (f, s, l)
      | _ => .error ("extra operand " ++ quoted (operands.getD 3 ""))
    match picked with
    | .error m => refuse m
    | .ok (f, s, l) =>
      if s.units == 0 then refuse ("invalid Zero increment value: " ++ quoted (operands.getD 1 ""))
      else
        let fmt := r.value? "f"
        match fmt with
        | some ft =>
          if r.has "w" then refuse "format string may not be specified when printing equal width strings"
          else match formatFault ft with
            | some m => ended files 1 "" (inv.program ++ ": " ++ m ++ "\n")
            | none => ended files 0 (sequenceText f s l ((r.value? "s").getD "\n") false fmt) ""
        | none => ended files 0 (sequenceText f s l ((r.value? "s").getD "\n") (r.has "w") none) ""

/-- Counting up, every term lies between the first number and the last, and one more step
passes the last. -/
theorem stepCount_up {f s l : Int} (hs : 0 < s) :
    (∀ i < stepCount f s l, f ≤ f + s * i ∧ f + s * i ≤ l) ∧ l < f + s * stepCount f s l := by
  unfold stepCount
  rw [if_pos hs]
  split
  · rename_i hlf
    refine ⟨fun i hi => absurd hi (Nat.not_lt_zero i), ?_⟩
    simpa using hlf
  · rename_i hlf
    -- the terms are those up to the quotient of the distance by the step
    have hq : 0 ≤ (l - f) / s := Int.ediv_nonneg (by omega) (by omega)
    have hle := Int.ediv_mul_le (l - f) (Int.ne_of_gt hs)
    have hlt := Int.lt_ediv_add_one_mul_self (l - f) hs
    have hcast : ((((l - f) / s).toNat + 1 : Nat) : Int) = (l - f) / s + 1 := by
      rw [Int.natCast_add, Int.toNat_of_nonneg hq]
      rfl
    refine ⟨fun i hi => ⟨?_, ?_⟩, ?_⟩
    · have : 0 ≤ s * i := Int.mul_nonneg (by omega) (Int.natCast_nonneg i)
      omega
    · have hi' : (i : Int) ≤ (l - f) / s := by omega
      have hmul := Int.mul_le_mul_of_nonneg_left hi' (Int.le_of_lt hs)
      rw [Int.mul_comm s ((l - f) / s)] at hmul
      omega
    · rw [hcast, Int.mul_comm]
      omega

/-- Counting down is counting up the negated numbers. -/
theorem stepCount_neg {f s l : Int} (hs : s < 0) : stepCount f s l = stepCount (-f) (-s) (-l) := by
  have hpos : -s > 0 := by omega
  have hns : ¬ s > 0 := by omega
  have hdist : -l - -f = f - l := by omega
  unfold stepCount
  rw [if_neg hns, if_pos hs, if_pos hpos, hdist]
  by_cases hlf : l > f
  · rw [if_pos hlf, if_pos (by omega)]
  · rw [if_neg hlf, if_neg (by omega)]

/-- Counting down, every term lies between the last number and the first, and one more step
passes the last. -/
theorem stepCount_down {f s l : Int} (hs : s < 0) :
    (∀ i < stepCount f s l, f + s * i ≤ f ∧ l ≤ f + s * i) ∧ f + s * stepCount f s l < l := by
  obtain ⟨hterms, hnext⟩ := stepCount_up (f := -f) (l := -l) (Int.neg_pos_of_neg hs)
  rw [← stepCount_neg hs] at hterms hnext
  refine ⟨fun i hi => ?_, ?_⟩
  · have h := hterms i hi
    rw [Int.neg_mul] at h
    omega
  · rw [Int.neg_mul] at hnext
    omega

example : sequenceText ⟨1, 0, 0, 1⟩ ⟨1, 0, 0, 1⟩ ⟨3, 0, 0, 1⟩ "\n" false none = "1\n2\n3\n" := by
  decide +kernel

end BuildRecipe.Utilities
