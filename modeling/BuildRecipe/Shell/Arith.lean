import BuildRecipe.Shell.Number
import BuildRecipe.Shell.Syntax
/-!
# Arithmetic expansion

`$((...))` evaluates an expression overflow signed 64-bit integers, which wrap around. The
grammar, from the loosest binding to the tightest:

* assignment `name = e`, and `op=` for each binary operator below but the comparisons, to the
  right;
* the conditional `c ? a : b`, where `a` may assign;
* `||`, then `&&`, each giving 0 or 1 and leaving the right side unevaluated when the left
  decides;
* the binary operators by level, each level to the left: `* / %`, then `+ -`, then `<< >>`,
  then `< <= > >=`, then `== !=`, then `&`, `^`, `|`;
* the unary `+ - ! ~`, parentheses, numbers and names.

A number is read as `strtoimax` reads it with base 0, so `0x1F` is 31 and `017` is 15. A name
stands for its variable's value read the same way, blanks around it allowed and an unset or
empty variable counting as 0; any other value is an illegal number. Division truncates toward
zero, and division or remainder by zero is an error; a shift takes its amount modulo 64.
Unevaluated sides look up and assign nothing.

The errors are `arithmetic expression: <what>: "<expression>"` with `expecting primary`,
`expecting EOF`, `expecting ')'`, `expecting ':'` or `division by zero`, and `Illegal number`
for a variable's value.

Main statement: a side that is skipped assigns nothing and reads no variable, so it fails
only for the expression's form (`skip_evaluation`).
-/

namespace BuildRecipe.Shell

/-- A signed integer wrapped into the 64-bit range. -/
def wrap64 (v : Int) : Int := (v + 9223372036854775808) % 18446744073709551616 - 9223372036854775808

/-- The two's complement bits of a 64-bit value, as a natural number. -/
def bits64 (v : Int) : Nat := (v % 18446744073709551616).toNat

/-- The signed value of 64 bits. -/
def ofBits64 (n : Nat) : Int := wrap64 n

/-- A binary operator of arithmetic. -/
inductive ArithOp where
  | mul | div | rem | add | sub | shl | shr | lt | le | gt | ge | eq | ne | band | bxor | bor
  deriving DecidableEq, Repr, Inhabited

namespace ArithOp

/-- How tightly an operator binds: a smaller level binds tighter. -/
def level : ArithOp → Nat
  | mul | div | rem => 0
  | add | sub => 1
  | shl | shr => 2
  | lt | le | gt | ge => 3
  | eq | ne => 4
  | band => 5
  | bxor => 6
  | bor => 7

end ArithOp

/-- A token of an arithmetic expression. -/
inductive ArithToken where
  | num (v : Int)
  | var (name : Bytes)
  | binary (op : ArithOp)
  | assign (op : Option ArithOp)
  | andAnd
  | orOr
  | not
  | bnot
  | question
  | colon
  | lparen
  | rparen
  | bad
  deriving DecidableEq, Repr, Inhabited

/-- An operator, maybe followed by `=` to make it assigning. -/
def opOrAssign (op : ArithOp) (rest : List Char) : ArithToken × List Char :=
  match rest with
  | '=' :: after => (.assign (some op), after)
  | _ => (.binary op, rest)

/-- The tokens of an expression's text; lexing stops at a byte that starts no token. -/
def arithTokens : Nat → List Char → List ArithToken
  | 0, _ => []
  | _ + 1, [] => []
  | fuel + 1, c :: rest =>
    if c == ' ' || c == '\t' || c == '\n' then arithTokens fuel rest
    else if c.isDigit then
      let s := scanInteger (c :: rest) 0
      .num (clampSigned s.value).1 :: arithTokens fuel s.rest
    else if isNameStart c then
      let name := (c :: rest).takeWhile isNameChar
      .var (String.ofList name) :: arithTokens fuel (rest.drop (name.length - 1))
    else
      let (t, after) : ArithToken × List Char := match c, rest with
        | '=', '=' :: r => (.binary .eq, r)
        | '=', r => (.assign none, r)
        | '!', '=' :: r => (.binary .ne, r)
        | '!', r => (.not, r)
        | '<', '=' :: r => (.binary .le, r)
        | '<', '<' :: r => opOrAssign .shl r
        | '<', r => (.binary .lt, r)
        | '>', '=' :: r => (.binary .ge, r)
        | '>', '>' :: r => opOrAssign .shr r
        | '>', r => (.binary .gt, r)
        | '|', '|' :: r => (.orOr, r)
        | '|', r => opOrAssign .bor r
        | '&', '&' :: r => (.andAnd, r)
        | '&', r => opOrAssign .band r
        | '*', r => opOrAssign .mul r
        | '/', r => opOrAssign .div r
        | '%', r => opOrAssign .rem r
        | '+', r => opOrAssign .add r
        | '-', r => opOrAssign .sub r
        | '^', r => opOrAssign .bxor r
        | '~', r => (.bnot, r)
        | '?', r => (.question, r)
        | ':', r => (.colon, r)
        | '(', r => (.lparen, r)
        | ')', r => (.rparen, r)
        | _, r => (.bad, r)
      if t == ArithToken.bad then [.bad] else t :: arithTokens fuel after

/-- Why an expression has no value. -/
inductive ArithError where
  /-- A fault of the expression, in the words after `arithmetic expression: `. -/
  | malformed (what : String)
  /-- A variable whose value is no number. -/
  | illegalNumber (text : Bytes)
  deriving DecidableEq, Repr, Inhabited

/-- The value of an operator on two values; none for a division by zero. -/
def ArithOp.apply : ArithOp → Int → Int → Option Int
  | .mul, a, b => some (wrap64 (a * b))
  | .div, a, b => if b == 0 then none else some (wrap64 (Int.tdiv a b))
  | .rem, a, b => if b == 0 then none else some (wrap64 (Int.tmod a b))
  | .add, a, b => some (wrap64 (a + b))
  | .sub, a, b => some (wrap64 (a - b))
  | .shl, a, b => some (wrap64 (a * (Nat.pow 2 (b % 64).toNat : Int)))
  | .shr, a, b => some (Int.shiftRight a (b % 64).toNat)
  | .lt, a, b => some (if a < b then 1 else 0)
  | .le, a, b => some (if a ≤ b then 1 else 0)
  | .gt, a, b => some (if a > b then 1 else 0)
  | .ge, a, b => some (if a ≥ b then 1 else 0)
  | .eq, a, b => some (if a == b then 1 else 0)
  | .ne, a, b => some (if a != b then 1 else 0)
  | .band, a, b => some (ofBits64 (bits64 a &&& bits64 b))
  | .bxor, a, b => some (ofBits64 (bits64 a ^^^ bits64 b))
  | .bor, a, b => some (ofBits64 (bits64 a ||| bits64 b))

/-- The value of a variable's text as a number: `strtoimax` with base 0, blanks around it
allowed, empty text zero. -/
def variableNumber (text : Bytes) : Except ArithError Int :=
  let s := scanInteger text.toList 0
  let (v, overflow) := clampSigned s.value
  if overflow || !(s.rest.all isCSpace) then .error (.illegalNumber text) else .ok v

/-- What evaluating sees of the variables: their values, with the assignments made so far
(latest first) in front. -/
structure ArithState where
  lookup : Bytes → Option Bytes
  assigned : List (Bytes × Bytes) := []

namespace ArithState

/-- The value of a variable. -/
def get (st : ArithState) (name : Bytes) : Option Bytes :=
  match st.assigned.find? (·.1 == name) with
  | some (_, v) => some v
  | none => st.lookup name

/-- The number a variable holds. -/
def number (st : ArithState) (name : Bytes) : Except ArithError Int :=
  variableNumber ((st.get name).getD "")

end ArithState

/-- An evaluation step: a value, the tokens left and the variables after it. -/
abbrev ArithStep := Except ArithError (Int × List ArithToken × ArithState)

mutual

/-- An assignment, or a conditional expression. -/
def evalAssign : Nat → Bool → List ArithToken → ArithState → ArithStep
  | 0, _, _, _ => .error (.malformed "expecting primary")
  | fuel + 1, skip, ts, st =>
    match ts with
    | .var name :: .assign op :: rest =>
      match evalAssign fuel skip rest st with
      | .error e => .error e
      | .ok (v, rest, st) =>
        if skip then .ok (v, rest, st)
        else
          let result : Except ArithError Int := match op with
            | none => .ok v
            | some o =>
              match st.number name with
              | .error e => .error e
              | .ok old =>
                match o.apply old v with
                | some r => .ok r
                | none => .error (.malformed "division by zero")
          match result with
          | .error e => .error e
          | .ok r => .ok (r, rest, { st with assigned := (name, intText r) :: st.assigned })
    | _ => evalCond fuel skip ts st

/-- A conditional expression `c ? a : b`, or an `||` expression. -/
def evalCond : Nat → Bool → List ArithToken → ArithState → ArithStep
  | 0, _, _, _ => .error (.malformed "expecting primary")
  | fuel + 1, skip, ts, st =>
    match evalOr fuel skip ts st with
    | .error e => .error e
    | .ok (c, .question :: rest, st) =>
      match evalAssign fuel (skip || c == 0) rest st with
      | .error e => .error e
      | .ok (a, .colon :: rest, st) =>
        match evalCond fuel (skip || c != 0) rest st with
        | .error e => .error e
        | .ok (b, rest, st) => .ok (if c != 0 then a else b, rest, st)
      | .ok _ => .error (.malformed "expecting ':'")
    | .ok r => .ok r

/-- An `||` expression. -/
def evalOr : Nat → Bool → List ArithToken → ArithState → ArithStep
  | 0, _, _, _ => .error (.malformed "expecting primary")
  | fuel + 1, skip, ts, st =>
    match evalAnd fuel skip ts st with
    | .error e => .error e
    | .ok (a, .orOr :: rest, st) =>
      match evalOr fuel (skip || a != 0) rest st with
      | .error e => .error e
      | .ok (b, rest, st) => .ok (if a != 0 || b != 0 then 1 else 0, rest, st)
    | .ok r => .ok r

/-- An `&&` expression. -/
def evalAnd : Nat → Bool → List ArithToken → ArithState → ArithStep
  | 0, _, _, _ => .error (.malformed "expecting primary")
  | fuel + 1, skip, ts, st =>
    match evalBinary fuel skip 8 ts st with
    | .error e => .error e
    | .ok (a, .andAnd :: rest, st) =>
      match evalAnd fuel (skip || a == 0) rest st with
      | .error e => .error e
      | .ok (b, rest, st) => .ok (if a != 0 && b != 0 then 1 else 0, rest, st)
    | .ok r => .ok r

/-- Binary operators binding tighter than `limit`, each level to the left. -/
def evalBinary : Nat → Bool → Nat → List ArithToken → ArithState → ArithStep
  | 0, _, _, _, _ => .error (.malformed "expecting primary")
  | fuel + 1, skip, limit, ts, st =>
    match evalUnary fuel skip ts st with
    | .error e => .error e
    | .ok (a, rest, st) => binaryTail fuel skip limit a rest st

/-- The operators after a left operand `a`. -/
def binaryTail : Nat → Bool → Nat → Int → List ArithToken → ArithState → ArithStep
  | 0, _, _, _, _, _ => .error (.malformed "expecting primary")
  | fuel + 1, skip, limit, a, ts, st =>
    match ts with
    | .binary op :: rest =>
      if op.level < limit then
        match evalBinary fuel skip op.level rest st with
        | .error e => .error e
        | .ok (b, rest, st) =>
          if skip then binaryTail fuel skip limit b rest st
          else
            match op.apply a b with
            | some v => binaryTail fuel skip limit v rest st
            | none => .error (.malformed "division by zero")
      else .ok (a, ts, st)
    | _ => .ok (a, ts, st)

/-- A unary operator, a parenthesised expression, a number or a name. -/
def evalUnary : Nat → Bool → List ArithToken → ArithState → ArithStep
  | 0, _, _, _ => .error (.malformed "expecting primary")
  | fuel + 1, skip, ts, st =>
    match ts with
    | .lparen :: rest =>
      match evalAssign fuel skip rest st with
      | .error e => .error e
      | .ok (v, .rparen :: rest, st) => .ok (v, rest, st)
      | .ok _ => .error (.malformed "expecting ')'")
    | .num v :: rest => .ok (v, rest, st)
    | .var name :: rest =>
      if skip then .ok (0, rest, st)
      else
        match st.number name with
        | .ok v => .ok (v, rest, st)
        | .error e => .error e
    | .binary .add :: rest => evalUnary fuel skip rest st
    | .binary .sub :: rest =>
      match evalUnary fuel skip rest st with
      | .ok (v, rest, st) => .ok (wrap64 (-v), rest, st)
      | .error e => .error e
    | .not :: rest =>
      match evalUnary fuel skip rest st with
      | .ok (v, rest, st) => .ok (if v == 0 then 1 else 0, rest, st)
      | .error e => .error e
    | .bnot :: rest =>
      match evalUnary fuel skip rest st with
      | .ok (v, rest, st) => .ok (-v - 1, rest, st)
      | .error e => .error e
    | _ => .error (.malformed "expecting primary")

end

/-- The value of an expression's text and the assignments it made, in order; an expression of
blanks only is 0. -/
def evaluate (text : Bytes) (lookup : Bytes → Option Bytes) :
    Except ArithError (Int × List (Bytes × Bytes)) :=
  let cs := text.toList
  let ts := arithTokens (cs.length + 1) cs
  if ts.isEmpty && cs.all (fun c => c == ' ' || c == '\t' || c == '\n') then .ok (0, [])
  else
    match evalAssign (4 * ts.length + 8) false ts ⟨lookup, []⟩ with
    | .error e => .error e
    | .ok (v, [], st) => .ok (v, st.assigned.reverse)
    | .ok _ => .error (.malformed "expecting EOF")

/-- The message of an arithmetic error in an expression. -/
def ArithError.message (text : Bytes) : ArithError → Bytes
  | .malformed what => "arithmetic expression: " ++ what ++ ": \"" ++ text ++ "\""
  | .illegalNumber t => "Illegal number: " ++ t

/-- What an evaluation that only skips may end with: the variables as they were, or a fault of
the expression's form, never of a variable's value, which it does not read. -/
def ArithStep.Skipped (st : ArithState) : ArithStep → Prop
  | .ok (_, _, st') => st' = st
  | .error e => ∃ what, e = .malformed what

namespace ArithStep

theorem skipped_malformed (st : ArithState) (what : String) :
    Skipped st (.error (.malformed what)) := ⟨what, rfl⟩

theorem skipped_ok (st : ArithState) (v : Int) (rest : List ArithToken) :
    Skipped st (.ok (v, rest, st)) := rfl

theorem Skipped.state_eq {r : ArithStep} {st st' : ArithState} {v : Int} {rest : List ArithToken}
    (hr : Skipped st r) (h : r = .ok (v, rest, st')) : st' = st := by
  subst h
  exact hr

theorem Skipped.of_eq {r r' : ArithStep} {st : ArithState} (hr : Skipped st r) (h : r = r') :
    Skipped st r' :=
  h ▸ hr

end ArithStep

open ArithStep in
/-- The sides an evaluation skips look up and assign nothing: evaluating with `skip` set leaves
the variables as they were and fails, if at all, only for the expression's form. The
induction is on the fuel, through all the levels of the grammar at once. -/
theorem skip_evaluation (fuel : Nat) :
    (∀ ts st, Skipped st (evalAssign fuel true ts st)) ∧
    (∀ ts st, Skipped st (evalCond fuel true ts st)) ∧
    (∀ ts st, Skipped st (evalOr fuel true ts st)) ∧
    (∀ ts st, Skipped st (evalAnd fuel true ts st)) ∧
    (∀ limit ts st, Skipped st (evalBinary fuel true limit ts st)) ∧
    (∀ limit a ts st, Skipped st (binaryTail fuel true limit a ts st)) ∧
    (∀ ts st, Skipped st (evalUnary fuel true ts st)) := by
  induction fuel with
  | zero =>
    refine ⟨?_, ?_, ?_, ?_, ?_, ?_, ?_⟩ <;> intros <;> exact skipped_malformed _ _
  | succ n ih =>
    obtain ⟨hA, hC, hO, hN, hB, hT, hU⟩ := ih
    refine ⟨fun ts st => ?_, fun ts st => ?_, fun ts st => ?_, fun ts st => ?_,
      fun limit ts st => ?_, fun limit a ts st => ?_, fun ts st => ?_⟩
    · -- an assignment's value is worked out and not stored
      unfold evalAssign
      split
      · split
        · exact Skipped.of_eq (hA _ st) (by assumption)
        · rename_i h
          simp only [if_true]
          obtain rfl := Skipped.state_eq (hA _ st) h
          exact skipped_ok _ _ _
      · exact hC ts st
    · -- the condition is worked out; both branches are skipped
      unfold evalCond
      simp only [Bool.true_or]
      split
      · exact Skipped.of_eq (hO ts st) (by assumption)
      · rename_i h
        obtain rfl := Skipped.state_eq (hO ts st) h
        split
        · exact Skipped.of_eq (hA _ _) (by assumption)
        · rename_i h
          obtain rfl := Skipped.state_eq (hA _ _) h
          split
          · exact Skipped.of_eq (hC _ _) (by assumption)
          · rename_i h
            obtain rfl := Skipped.state_eq (hC _ _) h
            exact skipped_ok _ _ _
        · exact skipped_malformed _ _
      · exact Skipped.of_eq (hO ts st) (by assumption)
    · unfold evalOr
      simp only [Bool.true_or]
      split
      · exact Skipped.of_eq (hN ts st) (by assumption)
      · rename_i h
        obtain rfl := Skipped.state_eq (hN ts st) h
        split
        · exact Skipped.of_eq (hO _ _) (by assumption)
        · rename_i h
          obtain rfl := Skipped.state_eq (hO _ _) h
          exact skipped_ok _ _ _
      · exact Skipped.of_eq (hN ts st) (by assumption)
    · unfold evalAnd
      simp only [Bool.true_or]
      split
      · exact Skipped.of_eq (hB 8 ts st) (by assumption)
      · rename_i h
        obtain rfl := Skipped.state_eq (hB 8 ts st) h
        split
        · exact Skipped.of_eq (hN _ _) (by assumption)
        · rename_i h
          obtain rfl := Skipped.state_eq (hN _ _) h
          exact skipped_ok _ _ _
      · exact Skipped.of_eq (hB 8 ts st) (by assumption)
    · unfold evalBinary
      split
      · exact Skipped.of_eq (hU ts st) (by assumption)
      · rename_i h
        obtain rfl := Skipped.state_eq (hU ts st) h
        exact hT _ _ _ _
    · -- a skipped operator is not applied, so no division by zero is found
      unfold binaryTail
      split
      · split
        · split
          · exact Skipped.of_eq (hB _ _ _) (by assumption)
          · rename_i h
            obtain rfl := Skipped.state_eq (hB _ _ _) h
            exact hT _ _ _ _
        · exact skipped_ok _ _ _
      · exact skipped_ok _ _ _
    · -- a skipped name is not looked up
      unfold evalUnary
      split
      · split
        · exact Skipped.of_eq (hA _ _) (by assumption)
        · rename_i h
          obtain rfl := Skipped.state_eq (hA _ _) h
          exact skipped_ok _ _ _
        · exact skipped_malformed _ _
      · exact skipped_ok _ _ _
      · exact skipped_ok _ _ _
      · exact hU _ _
      -- `-`, `!` and `~` only change the value of what follows them
      iterate 3
        split
        · rename_i h
          obtain rfl := Skipped.state_eq (hU _ _) h
          exact skipped_ok _ _ _
        · exact Skipped.of_eq (hU _ _) (by assumption)
      · exact skipped_malformed _ _

example : (evaluate "0 && (x = 1)" (fun _ => none)).toOption = some (0, []) ∧
    (evaluate "1 || y / 0" (fun _ => none)).toOption = some (1, []) := by
  decide +kernel

example : (evaluate "42" (fun _ => none)).toOption = some (42, []) := by
  decide +kernel

end BuildRecipe.Shell
