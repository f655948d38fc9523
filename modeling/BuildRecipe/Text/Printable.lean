/-!
# Printable characters

A character is printable unless it is a control, a format character, a surrogate, a private
use character, a noncharacter, or a separator other than the space. Characters that extend
the grapheme before them (combining marks, variation selectors) are counted apart: a quoted
text writes them as escapes, since on their own they would attach to the quote. The tables
hold the ranges of these classes that text in recipes and paths can reach: the Latin, Greek,
Cyrillic, Hebrew, Arabic and common symbol blocks, and the general punctuation and
specials blocks.

Main statements: every printable ASCII character is printable here (`isPrintable_ascii`),
and no ASCII character extends a grapheme (`isGraphemeExtend_ascii`).
-/

namespace BuildRecipe.Text

/-- Ranges of characters that are not printable outside ASCII. -/
def unprintableRanges : List (Nat × Nat) :=
  [(0x7F, 0xA0), (0xAD, 0xAD), (0x378, 0x379), (0x380, 0x383), (0x38B, 0x38B),
   (0x38D, 0x38D), (0x3A2, 0x3A2), (0x530, 0x530), (0x557, 0x558), (0x58B, 0x58C),
   (0x590, 0x590), (0x5C8, 0x5CF), (0x5EB, 0x5EE), (0x5F5, 0x605), (0x61C, 0x61C),
   (0x6DD, 0x6DD), (0x70E, 0x70F), (0x1680, 0x1680), (0x180E, 0x180E),
   (0x2000, 0x200A), (0x200B, 0x200F), (0x2028, 0x202F), (0x205F, 0x206F),
   (0x2072, 0x2073), (0x208F, 0x208F), (0x3000, 0x3000), (0xD800, 0xF8FF),
   (0xFDD0, 0xFDEF), (0xFEFF, 0xFEFF), (0xFFF0, 0xFFFB), (0xFFFE, 0xFFFF),
   (0xE0000, 0xE00FF), (0xE01F0, 0x10FFFF)]

/-- Ranges of characters that extend the grapheme before them. -/
def graphemeExtendRanges : List (Nat × Nat) :=
  [(0x300, 0x36F), (0x483, 0x489), (0x591, 0x5BD), (0x5BF, 0x5BF), (0x5C1, 0x5C2),
   (0x5C4, 0x5C5), (0x5C7, 0x5C7), (0x610, 0x61A), (0x64B, 0x65F), (0x670, 0x670),
   (0x6D6, 0x6DC), (0x6DF, 0x6E4), (0x6E7, 0x6E8), (0x6EA, 0x6ED), (0x1AB0, 0x1AFF),
   (0x1DC0, 0x1DFF), (0x200C, 0x200C), (0x20D0, 0x20F0), (0x302A, 0x302F),
   (0x3099, 0x309A), (0xFE00, 0xFE0F), (0xFE20, 0xFE2F), (0xE0020, 0xE007F),
   (0xE0100, 0xE01EF)]

/-- Whether a code point lies in one of the ranges. -/
def inRanges (rs : List (Nat × Nat)) (n : Nat) : Bool :=
  rs.any fun (lo, hi) => lo ≤ n && n ≤ hi

/-- Whether a character is printable. -/
def isPrintable (c : Char) : Bool :=
  let n := c.toNat
  if n < 0x20 then false
  else if n < 0x7F then true
  else !inRanges unprintableRanges n

/-- Whether a character extends the grapheme before it. -/
def isGraphemeExtend (c : Char) : Bool := inRanges graphemeExtendRanges c.toNat

/-- A Unicode scalar value names the character with that code point. -/
theorem toNat_ofNat_of_scalar {n : Nat} (h : n < 0xD800 ∨ (0xDFFF < n ∧ n < 0x110000)) :
    (Char.ofNat n).toNat = n := by
  have hv : n.isValidChar := by
    unfold Nat.isValidChar
    omega
  -- the character built from a valid code point holds it, and reading a character back
  -- through its code point gives the character
  have hc : (Char.ofNatAux n hv).toNat = n := rfl
  calc (Char.ofNat n).toNat = (Char.ofNat (Char.ofNatAux n hv).toNat).toNat := by rw [hc]
    _ = n := by rw [Char.ofNat_toNat, hc]

theorem isPrintable_ascii (c : Char) (h1 : 0x20 ≤ c.toNat) (h2 : c.toNat < 0x7F) :
    isPrintable c = true := by
  have : ¬ c.toNat < 0x20 := by omega
  simp [isPrintable, this, h2]

theorem isGraphemeExtend_ascii (c : Char) (h : c.toNat < 0x80) : isGraphemeExtend c = false := by
  -- every range of the table starts at the combining marks or later
  have hlow : ∀ p ∈ graphemeExtendRanges, 0x300 ≤ p.1 := by decide
  rw [isGraphemeExtend, inRanges, List.any_eq_false]
  intro p hp
  have := hlow p hp
  simp only [Bool.and_eq_true, decide_eq_true_eq, not_and, Nat.not_le]
  omega

end BuildRecipe.Text
