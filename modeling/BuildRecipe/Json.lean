import BuildRecipe.Error
/-!
# JSON documents

A JSON value with object members in a fixed order, and its pretty form: each array
element and each member on a line of its own, indented by two spaces per level, a
member written `"name": value`, an empty array `[]` and an empty object `{}`. Strings
escape the quote, the backslash and every control character below U+0020; the
backspace, form feed, line feed, carriage return and tab have short escapes, the other
controls are written `\u00XX` with lowercase hex digits. Main statement: a text without
quotes, backslashes and controls is written as itself between quotes.
-/

namespace BuildRecipe

/-- A JSON value whose object members keep their order. -/
inductive Json where
  | null
  | bool (b : Bool)
  | int (n : Int)
  | str (s : String)
  | arr (items : List Json)
  | obj (fields : List (String × Json))
  deriving Repr, Inhabited

namespace Json

/-- The lowercase hexadecimal digit of a number below sixteen. -/
def hexDigit (n : Nat) : Char :=
  if n < 10 then Char.ofNat (48 + n) else Char.ofNat (87 + n)

/-- The escaped form of one character inside a JSON string. -/
def escapeChar (c : Char) : List Char :=
  if c = '"' then ['\\', '"']
  else if c = '\\' then ['\\', '\\']
  else if c = '\n' then ['\\', 'n']
  else if c = '\r' then ['\\', 'r']
  else if c = '\t' then ['\\', 't']
  else if c.toNat = 8 then ['\\', 'b']
  else if c.toNat = 12 then ['\\', 'f']
  else if c.toNat < 0x20 then
    ['\\', 'u', '0', '0', hexDigit (c.toNat / 16), hexDigit (c.toNat % 16)]
  else [c]

/-- A string literal: the text between quotes, escaped. -/
def quote (s : String) : String :=
  String.ofList ('"' :: (s.toList.flatMap escapeChar ++ ['"']))

theorem escapeChar_plain (c : Char) (hq : c ≠ '"') (hb : c ≠ '\\') (hc : 0x20 ≤ c.toNat) :
    escapeChar c = [c] := by
  have hn : c ≠ '\n' := by intro h; subst h; simp at hc
  have hr : c ≠ '\r' := by intro h; subst h; simp at hc
  have ht : c ≠ '\t' := by intro h; subst h; simp at hc
  have h8 : c.toNat ≠ 8 := by omega
  have h12 : c.toNat ≠ 12 := by omega
  have hlt : ¬ c.toNat < 0x20 := by omega
  rw [escapeChar, if_neg hq, if_neg hb, if_neg hn, if_neg hr, if_neg ht, if_neg h8, if_neg h12,
    if_neg hlt]

/-- Spaces for `depth` levels of indentation. -/
def indent (depth : Nat) : String := String.ofList (List.replicate (2 * depth) ' ')

mutual
/-- The pretty text of a value whose first line starts at indentation `depth`. -/
def pretty (depth : Nat) : Json → String
  | null => "null"
  | bool b => if b then "true" else "false"
  | int n => intText n
  | str s => quote s
  | arr [] => "[]"
  | arr (x :: xs) =>
    "[\n" ++ String.intercalate ",\n" (prettyItems (depth + 1) (x :: xs)) ++ "\n" ++
      indent depth ++ "]"
  | obj [] => "\x7b\x7d"
  | obj (f :: fs) =>
    "\x7b\n" ++ String.intercalate ",\n" (prettyFields (depth + 1) (f :: fs)) ++ "\n" ++
      indent depth ++ "\x7d"

/-- The indented lines of array elements. -/
def prettyItems (depth : Nat) : List Json → List String
  | [] => []
  | x :: xs => (indent depth ++ pretty depth x) :: prettyItems depth xs

/-- The indented lines of object members. -/
def prettyFields (depth : Nat) : List (String × Json) → List String
  | [] => []
  | (k, v) :: fs => (indent depth ++ quote k ++ ": " ++ pretty depth v) :: prettyFields depth fs
end

/-- The pretty text of a document. -/
def render (j : Json) : String := pretty 0 j

/-- A list of texts as an array of strings. -/
def strings (xs : List String) : Json := arr (xs.map str)

theorem prettyItems_length (depth : Nat) (xs : List Json) :
    (prettyItems depth xs).length = xs.length := by
  induction xs with
  | nil => rfl
  | cons x xs ih => simp [prettyItems, ih]

end Json

end BuildRecipe
