import BuildRecipe.Toml.Number
/-!
# TOML date-times

Dates, times and date-times as RFC 3339 writes them: `YYYY-MM-DD`, `HH:MM:SS` with an
optional fraction, a date and a time joined by `T`, `t` or a space, and an optional offset
`Z`, `z` or `±HH:MM`. Each field has its range (a month up to 12, a day up to the length of
its month, an hour up to 23, a minute up to 59, a second up to 60); a field out of range is
reported at its first digit. Fractions of a second keep nine digits; more are cut off.

Main statements: February of a leap year has 29 days (`daysInMonth_leap`), and of other
years 28 (`daysInMonth_common`).
-/

namespace BuildRecipe.Toml

open Reader

/-- Whether a year is a leap year of the Gregorian calendar. -/
def isLeapYear (y : Nat) : Bool := y % 4 == 0 && (y % 100 != 0 || y % 400 == 0)

/-- The number of days in a month of a year. -/
def daysInMonth (y m : Nat) : Nat :=
  if m = 2 then (if isLeapYear y then 29 else 28)
  else if m = 4 ∨ m = 6 ∨ m = 9 ∨ m = 11 then 30
  else 31

/-- Exactly `n` digits. -/
def digitsExactly (n : Nat) : Reader (List Char) := guard (takeUpTo isDigit n) (·.length == n)

/-- A field of `n` digits whose value lies between `lo` and `hi`. -/
def field (n lo hi : Nat) : Reader Nat :=
  check (digitsExactly n) fun ds =>
    let v := decimalValue ds
    if lo ≤ v ∧ v ≤ hi then .ok v else .error .outOfRange

/-- `full-date = date-fullyear "-" date-month "-" date-mday`. -/
def fullDate : Reader Date := do
  let year := decimalValue (← digitsExactly 4)
  char '-'
  let month ← cut (field 2 1 12)
  cut (char '-')
  let dayStart ← here
  let day ← cut (field 2 1 31)
  if daysInMonth year month < day then
    throw { offset := dayStart.offset, fault := some .outOfRange, committed := true }
  return ⟨year, month, day⟩

/-- The nanoseconds of a fraction's digits, nine kept. -/
def nanosOf (ds : List Char) : Nat :=
  let kept := ds.take 9
  decimalValue kept * Nat.pow 10 (9 - kept.length)

/-- `time-secfrac = "." 1*DIGIT`. -/
def secondFraction : Reader Nat := do
  char '.'
  return nanosOf (← takeWhile1 isDigit)

/-- `partial-time = time-hour ":" time-minute ":" time-second [ time-secfrac ]`. -/
def partialTime : Reader Time := do
  let hour ← field 2 0 23
  char ':'
  cut do
    let minute ← field 2 0 59
    char ':'
    let second ← field 2 0 60
    let nanos ← optional secondFraction
    return ⟨hour, minute, second, nanos.getD 0⟩

/-- `time-offset = "Z" / time-numoffset`. -/
def timeOffset : Reader Offset :=
  label "time offset" <|
    orElse (do let _ ← satisfy fun c => c == 'Z' || c == 'z'; return .utc) do
      let sign ← satisfy fun c => c == '+' || c == '-'
      let (h, m) ← cut do
        let h ← field 2 0 23
        char ':'
        let m ← field 2 0 59
        return (h, m)
      let total : Int := (h * 60 + m : Nat)
      return .minutes (if sign == '-' then -total else total)

/-- `time-delim = "T" / %x20`, either case of `T`. -/
def isTimeDelim (c : Char) : Bool := c == 'T' || c == 't' || c == ' '

/-- `date-time`: a date with an optional time and offset, or a time alone. -/
def datetime : Reader Datetime :=
  orElse
    (label "date-time" do
      let d ← fullDate
      match ← optional (do
          let _ ← satisfy isTimeDelim
          let t ← partialTime
          let o ← optional timeOffset
          return (t, o)) with
      | some (t, o) => return ⟨some d, some t, o⟩
      | none => return ⟨some d, none, none⟩)
    (label "time" do
      let t ← partialTime
      return ⟨none, some t, none⟩)

theorem daysInMonth_leap (y : Nat) (h : isLeapYear y = true) : daysInMonth y 2 = 29 := by
  simp [daysInMonth, h]

theorem daysInMonth_common (y : Nat) (h : isLeapYear y = false) : daysInMonth y 2 = 28 := by
  simp [daysInMonth, h]

end BuildRecipe.Toml
