/-!
# Binary64 numbers

A binary64 number is a sign and a magnitude: `m · 2^e` with `m < 2^53` and
`-1074 ≤ e ≤ 971`, infinity, or NaN. A finite magnitude is kept with a 53-bit `m`, or with
`e = -1074` when it is subnormal, and zero is `0 · 2^-1074`. A decimal `d · 10^k` rounds to
the nearest magnitude, a tie to the even mantissa, and to infinity when it rounds past the
largest one. All of it is exact arithmetic on natural numbers.

Main statements: zero rounds to zero (`ofRatio_zero`), and a quotient that is a whole
number needs no rounding (`divRoundEven_mul`).
-/

namespace BuildRecipe.Decimal

/-- The size of a binary64 number. -/
inductive Magnitude where
  | finite (m : Nat) (e : Int)
  | infinite
  | nan
  deriving DecidableEq, Repr, Inhabited

/-- A binary64 number: its sign and its size. -/
structure Binary64 where
  negative : Bool
  magnitude : Magnitude
  deriving DecidableEq, Repr, Inhabited

/-- The exponent of the subnormal numbers. -/
def minExponent : Int := -1074

/-- The exponent of the largest finite numbers. -/
def maxExponent : Int := 971

/-- `n · 2^e` as a numerator and a denominator. -/
def scaledByTwo (n : Nat) (e : Int) : Nat × Nat :=
  if 0 ≤ e then (n * Nat.pow 2 e.toNat, 1) else (n, Nat.pow 2 (-e).toNat)

/-- Whether `num / den ≥ 2^t`. -/
def ratioAtLeastPow (num den : Nat) (t : Int) : Bool :=
  if 0 ≤ t then decide (den * Nat.pow 2 t.toNat ≤ num) else decide (den ≤ num * Nat.pow 2 (-t).toNat)

/-- The exponent `e` with `2^52 ≤ num / (den · 2^e) < 2^53`, for a positive ratio: the
floor of the ratio's binary logarithm is the difference of the two logarithms or one less. -/
def leadingExponent (num den : Nat) : Int :=
  let t : Int := (Nat.log2 num : Int) - (Nat.log2 den : Int)
  (if ratioAtLeastPow num den t then t else t - 1) - 52

/-- Division rounded to the nearest whole number, a tie to the even one. -/
def divRoundEven (num den : Nat) : Nat :=
  let q := num / den
  let r := num % den
  if den < 2 * r then q + 1
  else if 2 * r < den then q
  else if q % 2 = 0 then q else q + 1

/-- The magnitude nearest to `num / den`. -/
def ofRatio (num den : Nat) : Magnitude :=
  if num = 0 then .finite 0 minExponent
  else
    let e := max (leadingExponent num den) minExponent
    let m := if 0 ≤ e then divRoundEven num (den * Nat.pow 2 e.toNat)
      else divRoundEven (num * Nat.pow 2 (-e).toNat) den
    let (m, e) := if m = Nat.pow 2 53 then (Nat.pow 2 52, e + 1) else (m, e)
    if maxExponent < e then .infinite else .finite m e

/-- The number of decimal digits of `n`, one for zero. -/
def digitCount (n : Nat) : Nat := (Nat.toDigits 10 n).length

/-- The magnitude nearest to `d · 10^k`. Far outside the range of binary64 the answer is
read off the digit count: at or above `10^310` it is infinity, below `10^-325` zero. -/
def ofDecimal (d : Nat) (k : Int) : Magnitude :=
  if d = 0 then .finite 0 minExponent
  else
    let top : Int := (digitCount d : Int) + k
    if 310 < top then .infinite
    else if top < -324 then .finite 0 minExponent
    else if 0 ≤ k then ofRatio (d * Nat.pow 10 k.toNat) 1
    else ofRatio d (Nat.pow 10 (-k).toNat)

theorem ofRatio_zero (den : Nat) : ofRatio 0 den = .finite 0 minExponent := by
  simp [ofRatio]

theorem divRoundEven_mul (q den : Nat) (h : 0 < den) : divRoundEven (q * den) den = q := by
  have hr : q * den % den = 0 := Nat.mul_mod_left q den
  have hq : q * den / den = q := Nat.mul_div_cancel q h
  simp [divRoundEven, hr, hq, h]

end BuildRecipe.Decimal
