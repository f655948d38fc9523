import BuildRecipe.Text.Bytes
/-!
# Permission modes

The permission bits of a file, and the mode texts that `chmod` and `mkdir -m` take: up to
four octal digits, which set the bits, or comma-separated symbolic clauses
`[ugoa]*[+-=][rwxXst]*` (or `[+-=][ugo]` to copy a class), which change them. A clause
without a class letter applies to all classes, under the file-creation mask.

`modeText` writes bits as `ls -l` and `chmod -v` do, `rwxr-xr-x`, and `octalText` as four
octal digits.

Main statements: a mode written in octal sets the bits it writes (`applyMode_octal`), and a
clause that names classes changes only their bits, whatever its operator
(`applyAction_outside`).
-/

namespace BuildRecipe.Utilities

/-- A clause of a symbolic mode: the classes it names (none for all, under the mask), the
operator, and the permissions it gives or the class it copies them from. -/
structure ModeAction where
  who : Nat
  op : Char
  perms : Nat
  copyFrom : Option Nat
  ifAnyX : Bool

/-- The bits of the classes of a `who` letter. -/
def whoBits (c : Char) : Nat :=
  match c with
  | 'u' => 0o4700
  | 'g' => 0o2070
  | 'o' => 0o1007
  | _ => 0o7777

/-- The actions of a symbolic mode, or none when it is not one. -/
def symbolicActions (text : List Char) : Option (List ModeAction) :=
  let clauses := text.splitOn ','
  clauses.foldr (fun clause acc =>
    match acc with
    | none => none
    | some rest =>
      let whoChars := clause.takeWhile fun c => "ugoa".toList.contains c
      let who := whoChars.foldl (fun w c => w ||| whoBits c) 0
      let body := clause.drop whoChars.length
      -- each operator with the letters after it
      let rec ops : Nat → List Char → Option (List ModeAction)
        | 0, _ => some []
        | _ + 1, [] => some []
        | fuel + 1, op :: more =>
          if !("+-=".toList.contains op) then none
          else
            let letters := more.takeWhile fun c => !("+-=".toList.contains c)
            let after := more.drop letters.length
            let action : Option ModeAction :=
              match letters with
              | ['u'] => some ⟨who, op, 0, some 0o700, false⟩
              | ['g'] => some ⟨who, op, 0, some 0o070, false⟩
              | ['o'] => some ⟨who, op, 0, some 0o007, false⟩
              | _ =>
                if letters.all fun c => "rwxXst".toList.contains c then
                  some ⟨who, op, letters.foldl (fun v c =>
                    v ||| (match c with
                      | 'r' => 0o444
                      | 'w' => 0o222
                      | 'x' => 0o111
                      | 's' => 0o6000
                      | 't' => 0o1000
                      | _ => 0)) 0, none, letters.contains 'X'⟩
                else none
            match action, ops fuel after with
            | some a, some more => some (a :: more)
            | _, _ => none
      if body.isEmpty then none
      else
        match ops (body.length + 1) body with
        | some acts => some (acts ++ rest)
        | none => none) (some [])

/-- Permission bits after a symbolic action, for a directory when `dir`, under a mask. -/
def applyAction (mask : Nat) (dir : Bool) (mode : Nat) (a : ModeAction) : Nat :=
  let value := match a.copyFrom with
    | some cls =>
      let v := mode &&& cls
      (if v &&& 0o444 != 0 then 0o444 else 0) ||| (if v &&& 0o222 != 0 then 0o222 else 0) |||
        (if v &&& 0o111 != 0 then 0o111 else 0)
    | none =>
      if a.ifAnyX && (mode &&& 0o111 != 0 || dir) then a.perms ||| 0o111 else a.perms
  let value := value &&& (if a.who == 0 then 0o7777 ^^^ mask else a.who)
  match a.op with
  | '=' =>
    let preserved := if a.who == 0 then mask else 0o7777 ^^^ a.who
    (mode &&& preserved) ||| value
  | '+' => mode ||| value
  | _ => mode &&& (0o7777 ^^^ value)

/-- Permission bits after a mode text: octal digits set them, a symbolic mode changes them;
none when the text is not a mode. -/
def applyMode (mask : Nat) (dir : Bool) (text : Bytes) (mode : Nat) : Option Nat :=
  let cs := text.toList
  if !cs.isEmpty && cs.all fun c => '0' ≤ c && c ≤ '7' then
    let v := cs.foldl (fun v c => v * 8 + (c.toNat - 48)) 0
    if v ≤ 0o7777 then some v else none
  else (symbolicActions cs).map fun acts => acts.foldl (applyAction mask dir) mode

/-- Permission bits as `ls -l` writes them after the type letter: `rwx` for each class, with
`s`, `S`, `t` or `T` in the place of `x` for the set-id and sticky bits. -/
def modeText (m : Nat) : Bytes :=
  let bit (b : Nat) (c : Char) : Char := if m &&& b != 0 then c else '-'
  let exec (x special : Nat) (set unset : Char) : Char :=
    if m &&& special != 0 then (if m &&& x != 0 then set else unset)
    else bit x 'x'
  String.ofList [bit 0o400 'r', bit 0o200 'w', exec 0o100 0o4000 's' 'S',
    bit 0o040 'r', bit 0o020 'w', exec 0o010 0o2000 's' 'S',
    bit 0o004 'r', bit 0o002 'w', exec 0o001 0o1000 't' 'T']

/-- Permission bits as four octal digits. -/
def octalText (m : Nat) : Bytes :=
  let ds := (Nat.toDigits 8 (m &&& 0o7777))
  String.ofList (List.replicate (4 - ds.length) '0' ++ ds)

/-- The bits of classes, twelve at most, are permission bits. -/
theorem testBit_permissions {who i : Nat} (hle : who < 0o10000) (h : who.testBit i = true) :
    (0o7777 : Nat).testBit i = true := by
  have hall : (0o7777 : Nat) = 2 ^ 12 - 1 := rfl
  rw [hall, Nat.testBit_two_pow_sub_one, decide_eq_true_eq]
  refine Nat.lt_of_not_le fun hi => ?_
  have hpow : 2 ^ 12 ≤ 2 ^ i := Nat.pow_le_pow_right (by decide) hi
  rw [Nat.testBit_lt_two_pow (Nat.lt_of_lt_of_le hle hpow)] at h
  cases h

/-- What each operator leaves outside the classes it names: there, bit by bit, the mode's own
bits, for any value the clause gives. -/
theorem operators_outside (mode v who : Nat) (hle : who < 0o10000) :
    ((mode &&& (0o7777 ^^^ who)) ||| (v &&& who)) &&& (0o7777 ^^^ who) = mode &&& (0o7777 ^^^ who) ∧
      (mode ||| (v &&& who)) &&& (0o7777 ^^^ who) = mode &&& (0o7777 ^^^ who) ∧
      (mode &&& (0o7777 ^^^ (v &&& who))) &&& (0o7777 ^^^ who) = mode &&& (0o7777 ^^^ who) := by
  -- each bit of the classes is a permission bit, so outside them the mask keeps the mode's bit
  have key : ∀ i, who.testBit i = true → (0o7777 : Nat).testBit i = true :=
    fun _ => testBit_permissions hle
  refine ⟨?_, ?_, ?_⟩ <;> apply Nat.eq_of_testBit_eq <;> intro i <;>
    simp only [Nat.testBit_and, Nat.testBit_or, Nat.testBit_xor] <;>
    cases h1 : who.testBit i <;> cases h2 : (0o7777 : Nat).testBit i <;> simp_all

/-- A clause that names classes changes only their bits, whatever its operator. -/
theorem applyAction_outside (mask : Nat) (dir : Bool) (mode : Nat) (a : ModeAction)
    (hwho : a.who ≠ 0) (hle : a.who < 0o10000) :
    applyAction mask dir mode a &&& (0o7777 ^^^ a.who) = mode &&& (0o7777 ^^^ a.who) := by
  have hw : (a.who == 0) = false := by simpa using hwho
  unfold applyAction
  simp only [hw, Bool.false_eq_true, if_false]
  have hops := operators_outside mode
  split
  · exact (hops _ a.who hle).1
  · exact (hops _ a.who hle).2.1
  · exact (hops _ a.who hle).2.2

theorem octal_of_mem_toDigits {n : Nat} {c : Char} (h : c ∈ Nat.toDigits 8 n) :
    ('0' ≤ c && c ≤ '7') = true := by
  -- each digit below eight is written with a character from 0 to 7
  have hdigit : ∀ m < 8, ('0' ≤ Nat.digitChar m && Nat.digitChar m ≤ '7') = true := by decide
  induction n using Nat.base_induction 8 (by decide) with
  | single m hm =>
    rw [Nat.toDigits_of_lt_base hm, List.mem_singleton] at h
    exact h ▸ hdigit m hm
  | digit m k hk hm ih =>
    rw [← Nat.toDigits_append_toDigits (by decide) hm hk, List.mem_append] at h
    rcases h with h | h
    · exact ih h
    · rw [Nat.toDigits_of_lt_base hk, List.mem_singleton] at h
      exact h ▸ hdigit k hk

/-- A mode written in octal digits sets the bits they write, whatever the mode was. -/
theorem applyMode_octal (mask : Nat) (dir : Bool) (old : Nat) {v : Nat} (hv : v ≤ 0o7777) :
    applyMode mask dir (String.ofList (Nat.toDigits 8 v)) old = some v := by
  have hall : (Nat.toDigits 8 v).all (fun c => '0' ≤ c && c ≤ '7') = true :=
    List.all_eq_true.mpr fun _ hc => octal_of_mem_toDigits hc
  -- the digits read back as the number they write, in base eight
  have hfold : ∀ (ds : List Char) (init : Nat),
      ds.foldl (fun v c => v * 8 + (c.toNat - 48)) init = Nat.ofDigitChars 8 ds init := by
    intro ds
    induction ds with
    | nil => intro init; rfl
    | cons c ds ih =>
      intro init
      rw [List.foldl_cons, Nat.ofDigitChars_cons, ih, Nat.mul_comm]
      rfl
  have hvalue : (Nat.toDigits 8 v).foldl (fun v c => v * 8 + (c.toNat - 48)) 0 = v :=
    (hfold _ 0).trans (Nat.ofDigitChars_toDigits (by decide) (by decide))
  have hne : (Nat.toDigits 8 v).isEmpty = false := by
    simp [Nat.toDigits_ne_nil]
  simp only [applyMode, String.toList_ofList, hne, hall, hvalue, hv, Bool.not_false, Bool.and_self,
    if_true]

example : applyMode 0o022 false "755" 0 = some 0o755 ∧ applyMode 0o022 false "go=" 0o755 = some 0o700 ∧
    applyMode 0o022 false "u+s,+x" 0o644 = some 0o4755 := by
  decide

example : modeText 0o4755 = "rwsr-xr-x" ∧ octalText 0o644 = "0644" := by
  decide

end BuildRecipe.Utilities
