/-!
# SHA-256

The SHA-256 digest of a byte sequence (FIPS 180-4): the message is padded with a one
bit, zero bits and its bit length as a 64-bit big-endian number to a multiple of 64
bytes; each 64-byte block extends a schedule of 64 words and runs 64 rounds of the
compression function on the eight-word state. `hexDigest` writes the 32 digest bytes
as 64 lowercase hexadecimal digits.
-/

namespace BuildRecipe.Sha256

/-- The round constants: the first 32 bits of the fractional parts of the cube roots of
the first 64 primes. -/
def roundConstants : Array UInt32 := #[
  0x428a2f98, 0x71374491, 0xb5c0fbcf, 0xe9b5dba5, 0x3956c25b, 0x59f111f1, 0x923f82a4, 0xab1c5ed5,
  0xd807aa98, 0x12835b01, 0x243185be, 0x550c7dc3, 0x72be5d74, 0x80deb1fe, 0x9bdc06a7, 0xc19bf174,
  0xe49b69c1, 0xefbe4786, 0x0fc19dc6, 0x240ca1cc, 0x2de92c6f, 0x4a7484aa, 0x5cb0a9dc, 0x76f988da,
  0x983e5152, 0xa831c66d, 0xb00327c8, 0xbf597fc7, 0xc6e00bf3, 0xd5a79147, 0x06ca6351, 0x14292967,
  0x27b70a85, 0x2e1b2138, 0x4d2c6dfc, 0x53380d13, 0x650a7354, 0x766a0abb, 0x81c2c92e, 0x92722c85,
  0xa2bfe8a1, 0xa81a664b, 0xc24b8b70, 0xc76c51a3, 0xd192e819, 0xd6990624, 0xf40e3585, 0x106aa070,
  0x19a4c116, 0x1e376c08, 0x2748774c, 0x34b0bcb5, 0x391c0cb3, 0x4ed8aa4a, 0x5b9cca4f, 0x682e6ff3,
  0x748f82ee, 0x78a5636f, 0x84c87814, 0x8cc70208, 0x90befffa, 0xa4506ceb, 0xbef9a3f7, 0xc67178f2]

/-- The initial state: the first 32 bits of the fractional parts of the square roots of
the first eight primes. -/
def initialState : Array UInt32 := #[
  0x6a09e667, 0xbb67ae85, 0x3c6ef372, 0xa54ff53a, 0x510e527f, 0x9b05688c, 0x1f83d9ab, 0x5be0cd19]

/-- Rotation of a word to the right by `n` bits, for `0 < n < 32`. -/
def rotr (x : UInt32) (n : UInt32) : UInt32 := (x >>> n) ||| (x <<< (32 - n))

/-- The padded message: a one bit, zero bits, and the bit length in 64 bits. -/
def pad (msg : List UInt8) : List UInt8 :=
  let len := msg.length
  let zeros := (119 - len % 64) % 64
  let bits := len * 8
  msg ++ [0x80] ++ List.replicate zeros 0 ++
    (List.range 8).reverse.map fun i => ((bits / Nat.pow 2 (8 * i)) % 256).toUInt8

/-- The big-endian word made of four bytes. -/
def word (b : List UInt8) : UInt32 :=
  b.foldl (fun acc x => (acc <<< 8) ||| x.toUInt32) 0

/-- The message schedule of one block of sixteen words. -/
def schedule (block : List UInt32) : Array UInt32 :=
  (List.range 48).foldl (fun w i =>
    let t := i + 16
    let w15 := w.getD (t - 15) 0
    let w2 := w.getD (t - 2) 0
    let s0 := rotr w15 7 ^^^ rotr w15 18 ^^^ (w15 >>> 3)
    let s1 := rotr w2 17 ^^^ rotr w2 19 ^^^ (w2 >>> 10)
    w.push (w.getD (t - 16) 0 + s0 + w.getD (t - 7) 0 + s1)) block.toArray

/-- The state after the 64 rounds of one block, added to the state before. -/
def compress (h : Array UInt32) (block : List UInt32) : Array UInt32 :=
  let w := schedule block
  let final := (List.range 64).foldl (fun (v : Array UInt32) i =>
    let a := v.getD 0 0
    let b := v.getD 1 0
    let c := v.getD 2 0
    let d := v.getD 3 0
    let e := v.getD 4 0
    let f := v.getD 5 0
    let g := v.getD 6 0
    let hh := v.getD 7 0
    let s1 := rotr e 6 ^^^ rotr e 11 ^^^ rotr e 25
    let ch := (e &&& f) ^^^ ((~~~ e) &&& g)
    let t1 := hh + s1 + ch + roundConstants.getD i 0 + w.getD i 0
    let s0 := rotr a 2 ^^^ rotr a 13 ^^^ rotr a 22
    let maj := (a &&& b) ^^^ (a &&& c) ^^^ (b &&& c)
    let t2 := s0 + maj
    #[t1 + t2, a, b, c, d + t1, e, f, g]) h
  (List.range 8).toArray.map fun i => h.getD i 0 + final.getD i 0

/-- Consecutive groups of `n` elements; the last one may be shorter. -/
def chunks {α : Type} (n : Nat) (xs : List α) : List (List α) :=
  if _h : 0 < n ∧ xs ≠ [] then xs.take n :: chunks n (xs.drop n)
  else []
termination_by xs.length
decreasing_by
  obtain ⟨hn, hne⟩ := _h
  cases xs with
  | nil => exact absurd rfl hne
  | cons x xs => simp; omega

/-- The digest of a byte sequence as eight words. -/
def digestWords (msg : List UInt8) : Array UInt32 :=
  (chunks 64 (pad msg)).foldl (fun h block => compress h ((chunks 4 block).map word)) initialState

/-- Two lowercase hexadecimal digits of a byte. -/
def hexByte (b : Nat) : List Char :=
  let d (n : Nat) : Char := if n < 10 then Char.ofNat (48 + n) else Char.ofNat (87 + n)
  [d (b / 16), d (b % 16)]

/-- The digest of a byte sequence as 64 lowercase hexadecimal digits. -/
def hexDigest (msg : List UInt8) : String :=
  String.ofList ((digestWords msg).toList.flatMap fun w =>
    [24, 16, 8, 0].flatMap fun s => hexByte ((w.toNat / Nat.pow 2 s) % 256))

/-- The digest of the UTF-8 bytes of a text. -/
def hexOfText (s : String) : String := hexDigest s.toUTF8.toList

theorem pad_length_mod (msg : List UInt8) : (pad msg).length % 64 = 0 := by
  simp only [pad, List.length_append, List.length_singleton, List.length_replicate,
    List.length_map, List.length_reverse, List.length_range]
  omega

end BuildRecipe.Sha256
