import BuildRecipe.Text.Printable
/-!
# Quoted text

The quoted form of a text or a character, as messages write it: between double quotes for a
text and single quotes for a character. Inside, the backslash, the quote of the form, the
tab, carriage return, line feed and NUL have short escapes (`\\`, `\"` or `\'`, `\t`, `\r`,
`\n`, `\0`); a character that is not printable or that extends a grapheme is written
`\u{h}` with its code point in lowercase hex; every other character is itself.

Main statements: a printable character with no short escape is written as itself
(`escape_plain`), and the quoted text of a plain text is the text between quotes
(`quoteText_plain`).
-/

namespace BuildRecipe.Text

/-- Lowercase hex digits of a number, without leading zeros. -/
def hexDigits (n : Nat) : List Char := Nat.toDigits 16 n

/-- The escaped form of one character, given the quote that needs a backslash. -/
def escape (quote : Char) (c : Char) : List Char :=
  if c = '\\' then ['\\', '\\']
  else if c = quote then ['\\', c]
  else if c = '\t' then ['\\', 't']
  else if c = '\r' then ['\\', 'r']
  else if c = '\n' then ['\\', 'n']
  else if c.toNat = 0 then ['\\', '0']
  else if isGraphemeExtend c || !isPrintable c then
    ['\\', 'u', '\x7b'] ++ hexDigits c.toNat ++ ['\x7d']
  else [c]

/-- A text between double quotes, escaped. -/
def quoteText (s : String) : String :=
  String.ofList ('"' :: s.toList.flatMap (escape '"') ++ ['"'])

/-- A character between single quotes, escaped. -/
def quoteChar (c : Char) : String :=
  String.ofList ('\'' :: escape '\'' c ++ ['\''])

theorem escape_plain (q c : Char) (hb : c ≠ '\\') (hq : c ≠ q) (ht : c ≠ '\t') (hr : c ≠ '\r')
    (hn : c ≠ '\n') (h0 : c.toNat ≠ 0) (hg : isGraphemeExtend c = false)
    (hp : isPrintable c = true) : escape q c = [c] := by
  simp [escape, hb, hq, ht, hr, hn, h0, hg, hp]

theorem flatMap_escape_plain (q : Char) (cs : List Char) (h : ∀ c ∈ cs, escape q c = [c]) :
    cs.flatMap (escape q) = cs := by
  induction cs with
  | nil => rfl
  | cons c cs ih =>
    rw [List.flatMap_cons, h c (by simp), ih (fun d hd => h d (by simp [hd]))]
    rfl

theorem quoteText_plain (s : String) (h : ∀ c ∈ s.toList, escape '"' c = [c]) :
    quoteText s = String.ofList ('"' :: s.toList ++ ['"']) := by
  simp [quoteText, flatMap_escape_plain '"' s.toList h]

end BuildRecipe.Text
