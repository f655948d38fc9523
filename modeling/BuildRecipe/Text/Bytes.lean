/-!
# Byte strings

Files, the standard streams and the text a shell works on are strings of bytes. A byte
string is kept as a `String` whose every character stands for one byte, its code below 256,
so that the library's string operations apply to it; `Bytes.ofText` and `Bytes.toText` cross
between byte strings and text.

* `ofText` is the UTF-8 encoding of a text.
* `toText` reads bytes as UTF-8, each maximal part that is not a well-formed sequence read as
  one U+FFFD: a lead byte with the continuation bytes that may follow it, as far as they go,
  or a single byte that cannot start a sequence. The ranges of RFC 3629 decide: after `E0` the
  next byte is `A0`-`BF`, after `ED` it is `80`-`9F`, after `F0` `90`-`BF`, after `F4` `80`-`8F`.
* `toText?` reads bytes that are well-formed UTF-8 and nothing else.

Main statements: ASCII text is its own encoding (`ofText_ascii`), and a sequence of bytes
below `80` reads back as itself (`decodeLossy_ascii`).
-/

namespace BuildRecipe

/-- A byte string: each character stands for one byte. -/
abbrev Bytes := String

namespace Bytes

/-- The bytes of a list of byte values. -/
def ofNats (bs : List Nat) : Bytes := String.ofList (bs.map Char.ofNat)

/-- The byte values of a byte string. -/
def toNats (b : Bytes) : List Nat := b.toList.map Char.toNat

/-- The UTF-8 bytes of one character. -/
def encodeChar (c : Char) : List Nat :=
  let n := c.toNat
  if n < 0x80 then [n]
  else if n < 0x800 then [0xC0 + n / 64, 0x80 + n % 64]
  else if n < 0x10000 then [0xE0 + n / 4096, 0x80 + n / 64 % 64, 0x80 + n % 64]
  else [0xF0 + n / 262144, 0x80 + n / 4096 % 64, 0x80 + n / 64 % 64, 0x80 + n % 64]

/-- The UTF-8 encoding of a text. -/
def ofText (s : String) : Bytes := ofNats (s.toList.flatMap encodeChar)

/-- The length of the sequence a lead byte starts and the range its second byte must be in;
none for a byte that starts no sequence. -/
def leadRange (b : Nat) : Option (Nat × Nat × Nat) :=
  if b < 0x80 then some (1, 0, 0)
  else if 0xC2 ≤ b && b ≤ 0xDF then some (2, 0x80, 0xBF)
  else if b == 0xE0 then some (3, 0xA0, 0xBF)
  else if b == 0xED then some (3, 0x80, 0x9F)
  else if 0xE1 ≤ b && b ≤ 0xEF then some (3, 0x80, 0xBF)
  else if b == 0xF0 then some (4, 0x90, 0xBF)
  else if b == 0xF4 then some (4, 0x80, 0x8F)
  else if 0xF1 ≤ b && b ≤ 0xF3 then some (4, 0x80, 0xBF)
  else none

/-- Whether a byte continues a sequence. -/
def isContinuation (b : Nat) : Bool := 0x80 ≤ b && b < 0xC0

/-- How many of the bytes after a lead byte continue its sequence, up to `need`: the first
within `lo`-`hi`, the others continuation bytes. -/
def validAfter (need lo hi : Nat) : List Nat → Nat
  | [] => 0
  | b :: rest =>
    if need == 0 then 0
    else if lo ≤ b && b ≤ hi then 1 + validTail (need - 1) rest
    else 0
where
  /-- How many continuation bytes lead the list, up to `need`. -/
  validTail : Nat → List Nat → Nat
    | 0, _ => 0
    | _, [] => 0
    | k + 1, b :: rest => if isContinuation b then 1 + validTail k rest else 0

/-- The code point of a well-formed sequence: a lead byte and its continuation bytes. -/
def codePoint (lead : Nat) (more : List Nat) : Nat :=
  let start := match more.length with
    | 1 => lead % 32
    | 2 => lead % 16
    | _ => lead % 8
  more.foldl (fun acc b => acc * 64 + b % 64) start

/-- One step of reading: the character the bytes start with (none for a malformed part)
and how many of the bytes after the first it takes. -/
def step (b : Nat) (rest : List Nat) : Option Char × Nat :=
  match leadRange b with
  | none => (none, 0)
  | some (1, _, _) => (some (Char.ofNat b), 0)
  | some (len, lo, hi) =>
    let k := validAfter (len - 1) lo hi rest
    if k == len - 1 then (some (Char.ofNat (codePoint b (rest.take k))), k) else (none, k)

theorem validAfter_le (need lo hi : Nat) (bs : List Nat) : validAfter need lo hi bs ≤ bs.length := by
  have tail : ∀ k (xs : List Nat), validAfter.validTail k xs ≤ xs.length := by
    intro k xs
    induction xs generalizing k with
    | nil => cases k <;> simp [validAfter.validTail]
    | cons x xs ih =>
      cases k with
      | zero => simp [validAfter.validTail]
      | succ k =>
        simp only [validAfter.validTail, List.length_cons]
        split
        · have := ih k; omega
        · omega
  cases bs with
  | nil => simp [validAfter]
  | cons x xs =>
    simp only [validAfter, List.length_cons]
    split
    · omega
    · split
      · have := tail (need - 1) xs; omega
      · omega

theorem step_le (b : Nat) (rest : List Nat) : (step b rest).2 ≤ rest.length := by
  unfold step
  split
  · simp
  · simp
  · simp only
    split
    · exact validAfter_le _ _ _ _
    · exact validAfter_le _ _ _ _

/-- Read byte values as UTF-8, each malformed part as U+FFFD. -/
def decodeLossy : List Nat → List Char
  | [] => []
  | b :: rest =>
    let (c, k) := step b rest
    c.getD '�' :: decodeLossy (rest.drop k)
termination_by bs => bs.length
decreasing_by
  simp only [List.length_drop, List.length_cons]
  omega

/-- Read byte values as UTF-8; none when they are not well-formed. -/
def decodeStrict : List Nat → Option (List Char)
  | [] => some []
  | b :: rest =>
    match step b rest with
    | (some c, k) => (decodeStrict (rest.drop k)).map (c :: ·)
    | (none, _) => none
termination_by bs => bs.length
decreasing_by
  simp only [List.length_drop, List.length_cons]
  omega

/-- The text of a byte string, each malformed part read as U+FFFD. -/
def toText (b : Bytes) : String := String.ofList (decodeLossy b.toNats)

/-- The text of a byte string that is well-formed UTF-8. -/
def toText? (b : Bytes) : Option String := (decodeStrict b.toNats).map String.ofList

theorem encodeChar_ascii (c : Char) (h : c.toNat < 0x80) : encodeChar c = [c.toNat] := by
  simp [encodeChar, h]

theorem ofText_ascii (s : String) (h : ∀ c ∈ s.toList, c.toNat < 0x80) : ofText s = s := by
  have hmap : ∀ cs : List Char, (∀ c ∈ cs, c.toNat < 0x80) →
      (cs.flatMap encodeChar).map Char.ofNat = cs := by
    intro cs
    induction cs with
    | nil => intro _; rfl
    | cons c cs ih =>
      intro hc
      rw [List.flatMap_cons, encodeChar_ascii c (hc c (by simp)), List.singleton_append,
        List.map_cons, Char.ofNat_toNat, ih (fun x hx => hc x (by simp [hx]))]
  unfold ofText ofNats
  rw [hmap s.toList h, String.ofList_toList]

theorem decodeLossy_ascii (bs : List Nat) (h : ∀ b ∈ bs, b < 0x80) :
    decodeLossy bs = bs.map Char.ofNat := by
  induction bs with
  | nil => simp [decodeLossy]
  | cons b rest ih =>
    have hb : b < 0x80 := h b (by simp)
    have hstep : step b rest = (some (Char.ofNat b), 0) := by
      simp [step, leadRange, hb]
    rw [decodeLossy, hstep]
    simp only [Option.getD_some, List.drop_zero, List.map_cons]
    rw [ih (fun x hx => h x (by simp [hx]))]

end Bytes

end BuildRecipe
