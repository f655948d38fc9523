import BuildRecipe.Decimal.Binary64
/-!
# Shortest decimal text of a binary64 number

The text of a finite number is the decimal with the fewest significant digits that rounds
back to it, and of those the nearest; an exact tie between two goes to the larger. The
reals that round to `m · 2^e` lie between the midpoints to its two neighbours, both ends
included when `m` is even; below a power of two the lower neighbour is half as far. For one
digit, two, and so on, the two points of that decimal grid around the number are tested,
and the first grid with a point inside wins.

The digits are written positionally, never with an exponent: `0.001`, `1500`, `2.5`.

Main statements: a number of the grid needs no rounding (`gridFloor_mul`), and the
positional text of a digit string without a fraction is the string with zeros after it
(`positional_of_le`).
-/

namespace BuildRecipe.Decimal

/-- The reals that round to a finite magnitude, as numerators over a shared scale:
`value = v · num / den`, and likewise for the lower and upper ends. -/
structure Interval where
  low : Nat
  value : Nat
  high : Nat
  num : Nat
  den : Nat
  inclusive : Bool
  deriving Repr

/-- The interval of `m · 2^e`, for `m > 0`. -/
def Interval.ofFinite (m : Nat) (e : Int) : Interval :=
  let lowerCloser := m = Nat.pow 2 52 ∧ minExponent < e
  let (num, den) := scaledByTwo 1 e
  { low := if lowerCloser then 4 * m - 1 else 4 * m - 2
    value := 4 * m
    high := 4 * m + 2
    num := num
    den := 4 * den
    inclusive := m % 2 = 0 }

/-- `a · num / den` compared with `c · 10^j`: the sign of the difference as an ordering. -/
def compareGrid (a num den c : Nat) (j : Int) : Ordering :=
  if 0 ≤ j then compare (a * num) (c * Nat.pow 10 j.toNat * den)
  else compare (a * num * Nat.pow 10 (-j).toNat) (c * den)

/-- Whether `c · 10^j` lies in the interval. -/
def Interval.contains (i : Interval) (c : Nat) (j : Int) : Bool :=
  let aboveLow := compareGrid i.low i.num i.den c j
  let belowHigh := compareGrid i.high i.num i.den c j
  if i.inclusive then aboveLow != .gt && belowHigh != .lt
  else aboveLow == .lt && belowHigh == .gt

/-- The largest `c` with `c · 10^j ≤ v · num / den`. -/
def gridFloor (v num den : Nat) (j : Int) : Nat :=
  if 0 ≤ j then v * num / (Nat.pow 10 j.toNat * den) else v * num * Nat.pow 10 (-j).toNat / den

/-- The least `k` with `v · num / den < 10^k`, for a positive value; `bound` limits the
search. -/
def decimalExponent (v num den : Nat) : Int :=
  let below (k : Int) : Bool := compareGrid v num den 1 k == .lt
  let start : Int := (digitCount (v * num / den) : Int) - (digitCount den : Int) - 1
  let rec climb (k : Int) : Nat → Int
    | 0 => k
    | fuel + 1 => if below k then k else climb (k + 1) fuel
  let rec descend (k : Int) : Nat → Int
    | 0 => k
    | fuel + 1 => if below (k - 1) then descend (k - 1) fuel else k
  let k := climb start 700
  descend k 700

/-- The shortest digits of a positive finite magnitude: a whole number `c` and an exponent
`j` with the value `c · 10^j`. -/
def shortestDigits (m : Nat) (e : Int) : Nat × Int :=
  let i := Interval.ofFinite m e
  let k := decimalExponent i.value i.num i.den
  let pick (n : Nat) : Option (Nat × Int) :=
    let j := k - n
    let c := gridFloor i.value i.num i.den j
    let lowIn := i.contains c j
    let highIn := i.contains (c + 1) j
    if lowIn && highIn then
      -- the nearer of the two; a tie goes up
      match compareGrid (2 * i.value) i.num i.den (2 * c + 1) j with
      | .lt => some (c, j)
      | _ => some (c + 1, j)
    else if lowIn then some (c, j)
    else if highIn then some (c + 1, j)
    else none
  match (List.range 17).filterMap (fun n => pick (n + 1)) with
  | d :: _ => d
  | [] => (gridFloor i.value i.num i.den (k - 17), k - 17)

/-- The digits of `c · 10^j` without trailing zeros in `c`. -/
def trimZeros (c : Nat) (j : Int) : Nat → Nat × Int
  | 0 => (c, j)
  | fuel + 1 => if c ≠ 0 ∧ c % 10 = 0 then trimZeros (c / 10) (j + 1) fuel else (c, j)

/-- `c · 10^j` written positionally: digits, then zeros or a point and the fraction. -/
def positional (c : Nat) (j : Int) : String :=
  let ds := Nat.toDigits 10 c
  let n : Int := ds.length
  let point := n + j
  if 0 ≤ j then String.ofList (ds ++ List.replicate j.toNat '0')
  else if point ≤ 0 then
    String.ofList (['0', '.'] ++ List.replicate (-point).toNat '0' ++ ds)
  else String.ofList (ds.take point.toNat ++ '.' :: ds.drop point.toNat)

/-- The text of a binary64 number: the shortest digits written positionally, `inf` for
infinity and `NaN` for NaN, a minus sign before a negative number, zero included. -/
def Binary64.text (x : Binary64) : String :=
  let sign := if x.negative then "-" else ""
  match x.magnitude with
  | .nan => "NaN"
  | .infinite => sign ++ "inf"
  | .finite 0 _ => sign ++ "0"
  | .finite m e =>
    let (c, j) := shortestDigits m e
    let (c, j) := trimZeros c j 400
    sign ++ positional c j

theorem gridFloor_mul (c den : Nat) (h : 0 < den) : gridFloor (c * den) 1 den 0 = c := by
  simp [gridFloor, Nat.mul_div_cancel c h]

theorem positional_of_le (c : Nat) (j : Nat) :
    positional c j = String.ofList (Nat.toDigits 10 c ++ List.replicate j '0') := by
  simp [positional]

end BuildRecipe.Decimal
