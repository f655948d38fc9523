/-!
# Glob patterns

A pattern matches file names and paths: `?` any one character, `*` any run of characters,
`**` as a whole path component any run of components, `[...]` one character of a set and
`[!...]` one character outside it (a set lists characters and ranges `a-z`), and every
other character itself. Matching is exact in case and lets `*` cross slashes.

A pattern is refused with the position (in characters) of its first fault: three or more
stars in a row, `**` not standing alone between slashes, and a `[` without a closing `]`
after at least one character of the set.

Main statements: a pattern of plain characters matches exactly its own text
(`matches_literal`), and `*` matches every text (`matches_star`).
-/

namespace BuildRecipe.Glob

/-- One element of a set. -/
inductive CharClass where
  | single (c : Char)
  | range (lo hi : Char)
  deriving DecidableEq, Repr, Inhabited

/-- One element of a pattern. -/
inductive Token where
  | char (c : Char)
  | anyChar
  | anySequence
  | anyRecursive
  | within (set : List CharClass)
  | except (set : List CharClass)
  deriving DecidableEq, Repr, Inhabited

/-- Why a pattern is refused, and where. -/
structure PatternError where
  pos : Nat
  message : String
  deriving DecidableEq, Repr, Inhabited

/-- The message of a refused pattern. -/
def PatternError.text (e : PatternError) : String :=
  "Pattern syntax error near position " ++ String.ofList (Nat.toDigits 10 e.pos) ++ ": " ++
    e.message

/-- A compiled pattern: its tokens and whether it has a recursive wildcard. -/
structure Pattern where
  tokens : List Token
  recursive : Bool
  deriving DecidableEq, Repr, Inhabited

/-- The set listed by characters: `a-b` is a range when a character follows the dash. -/
def charClasses : List Char → List CharClass
  | a :: '-' :: b :: rest => .range a b :: charClasses rest
  | a :: rest => .single a :: charClasses rest
  | [] => []

/-- The message for too many stars. -/
def wildcardsMessage : String := "wildcards are either regular `*` or recursive `**`"

/-- The message for a recursive wildcard inside a component. -/
def recursiveMessage : String := "recursive wildcards must form a single path component"

/-- The message for an unclosed set. -/
def rangeMessage : String := "invalid range pattern"

/-- The position of the first `]` at or after `start`. -/
def closeIndex (cs : List Char) (start : Nat) : Option Nat :=
  ((cs.drop start).idxOf? ']').map (· + start)

theorem closeIndex_ge (cs : List Char) (start k : Nat) (hk : closeIndex cs start = some k) :
    start ≤ k := by
  unfold closeIndex at hk
  cases h : (cs.drop start).idxOf? ']' with
  | none => simp [h] at hk
  | some m => simp [h] at hk; omega

/-- The tokens of a pattern from character `i` on, `acc` holding those before, reversed. -/
def compileFrom (cs : List Char) (i : Nat) (acc : List Token) (recursive : Bool) :
    Except PatternError Pattern :=
  if h : i < cs.length then
    match cs[i] with
    | '?' => compileFrom cs (i + 1) (.anyChar :: acc) recursive
    | '*' =>
      let count := 1 + ((cs.drop (i + 1)).takeWhile (· == '*')).length
      let j := i + count
      if count > 2 then .error ⟨i + 2, wildcardsMessage⟩
      else if count == 2 then
        let startsComponent := i == 0 || cs[i - 1]? == some '/'
        if !startsComponent then .error ⟨i - 1, recursiveMessage⟩
        else if cs[j]? == some '/' then
          let acc' := if 1 < acc.length && acc.head? == some .anyRecursive then acc
            else .anyRecursive :: acc
          compileFrom cs (j + 1) acc' true
        else if j == cs.length then
          let acc' := if 1 < acc.length && acc.head? == some .anyRecursive then acc
            else .anyRecursive :: acc
          compileFrom cs j acc' true
        else .error ⟨j, recursiveMessage⟩
      else compileFrom cs j (.anySequence :: acc) recursive
    | '[' =>
      if i + 4 ≤ cs.length && cs[i + 1]? == some '!' then
        match hk : closeIndex cs (i + 3) with
        | some k => compileFrom cs (k + 1) (.except (charClasses ((cs.drop (i + 2)).take (k - (i + 2)))) :: acc) recursive
        | none => .error ⟨i, rangeMessage⟩
      else if i + 3 ≤ cs.length && cs[i + 1]? != some '!' then
        match hk : closeIndex cs (i + 2) with
        | some k => compileFrom cs (k + 1) (.within (charClasses ((cs.drop (i + 1)).take (k - (i + 1)))) :: acc) recursive
        | none => .error ⟨i, rangeMessage⟩
      else .error ⟨i, rangeMessage⟩
    | c => compileFrom cs (i + 1) (.char c :: acc) recursive
  else .ok ⟨acc.reverse, recursive⟩
termination_by cs.length - i
decreasing_by
  all_goals first
    | omega
    | (have hk3 := closeIndex_ge cs (i + 3) k hk; omega)
    | (have hk2 := closeIndex_ge cs (i + 2) k hk; omega)

/-- A pattern compiled from its text. -/
def compile (s : String) : Except PatternError Pattern := compileFrom s.toList 0 [] false

/-- Whether a character lies in a set. -/
def inClasses (set : List CharClass) (c : Char) : Bool :=
  set.any fun
    | .single x => x == c
    | .range lo hi => lo ≤ c && c ≤ hi

/-- Whether the tokens match the characters. A run wildcard tries every split; a recursive
wildcard the empty run, every run ending in a slash, and the whole rest. -/
def matchTokens : List Token → List Char → Bool
  | [], cs => cs.isEmpty
  | .anySequence :: ts, cs =>
    (List.range (cs.length + 1)).any fun k => matchTokens ts (cs.drop k)
  | .anyRecursive :: ts, cs =>
    (List.range (cs.length + 1)).any fun k =>
      (k == 0 || k == cs.length || cs[k - 1]? == some '/') && matchTokens ts (cs.drop k)
  | t :: ts, c :: cs =>
    let ok := match t with
      | .char x => x == c
      | .anyChar => true
      | .within set => inClasses set c
      | .except set => !inClasses set c
      | _ => false
    ok && matchTokens ts cs
  | _ :: _, [] => false

/-- Whether a pattern matches a text. -/
def Pattern.matches (p : Pattern) (s : String) : Bool := matchTokens p.tokens s.toList

theorem matchTokens_nil (cs : List Char) : matchTokens [] cs = cs.isEmpty := by
  cases cs <;> rfl

theorem matchTokens_char (x c : Char) (ts : List Token) (cs : List Char) :
    matchTokens (.char x :: ts) (c :: cs) = (x == c && matchTokens ts cs) := rfl

theorem matchTokens_anySequence (ts : List Token) (cs : List Char) :
    matchTokens (.anySequence :: ts) cs =
      (List.range (cs.length + 1)).any fun k => matchTokens ts (cs.drop k) := by
  cases cs <;> rfl

theorem matches_literal (cs : List Char) : matchTokens (cs.map Token.char) cs = true := by
  induction cs with
  | nil => rfl
  | cons c cs ih => rw [List.map_cons, matchTokens_char, ih]; simp

theorem matches_star (cs : List Char) : matchTokens [.anySequence] cs = true := by
  rw [matchTokens_anySequence, List.any_eq_true]
  exact ⟨cs.length, List.mem_range.mpr (by omega), by rw [List.drop_length, matchTokens_nil]; rfl⟩

end BuildRecipe.Glob
