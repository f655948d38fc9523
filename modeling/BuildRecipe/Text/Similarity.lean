/-!
# Similarity of words

The Jaro similarity of two words, kept as an exact fraction. A character of the first word
matches the first unmatched equal character of the second within a window of half the
longer length less one around its position; with `m` matches and `t` half the number of
matched pairs out of order, the similarity is `(m/|a| + m/|b| + (m - t)/m) / 3`, 1 for two
empty words and 0 when one is empty or nothing matches.

A suggestion for a mistyped word is a known word whose similarity is above 0.7; the most
similar comes last, and among equally similar ones the one listed later wins.

Main statements: the empty word is not similar to any other (`similarity_nil_left`), and the
words suggested are exactly the known words similar enough to the word given
(`mem_similarWords`).
-/

namespace BuildRecipe.Text

/-- A similarity as a fraction: numerator and denominator. -/
structure Ratio where
  num : Nat
  den : Nat
  deriving DecidableEq, Repr, Inhabited

/-- Whether one fraction is below another. -/
def Ratio.lt (x y : Ratio) : Bool := x.num * y.den < y.num * x.den

/-- Which characters of `a` and of `b` match. -/
def matchFlags (a b : List Char) : List Bool × List Bool :=
  let range := max a.length b.length / 2 - 1
  let (af, bf, _) := a.foldl (fun (af, bf, i) c =>
    let lo := i - range
    let hi := min b.length (i + range + 1)
    match (List.range' lo (hi - lo)).find? (fun j => b[j]? == some c && bf[j]? == some false) with
    | some j => (af ++ [true], bf.set j true, i + 1)
    | none => (af ++ [false], bf, i + 1)) ([], List.replicate b.length false, 0)
  (af, bf)

/-- The characters whose flag is set. -/
def flagged (cs : List Char) (flags : List Bool) : List Char :=
  (cs.zip flags).filterMap fun (c, f) => if f then some c else none

/-- The Jaro similarity of two words. -/
def similarity (a b : String) : Ratio :=
  let a := a.toList
  let b := b.toList
  if a.isEmpty && b.isEmpty then ⟨1, 1⟩
  else if a.isEmpty || b.isEmpty then ⟨0, 1⟩
  else
    let (af, bf) := matchFlags a b
    let am := flagged a af
    let bm := flagged b bf
    let m := am.length
    if m == 0 then ⟨0, 1⟩
    else
      let t := ((am.zip bm).filter fun (x, y) => x != y).length / 2
      ⟨m * b.length * m + m * a.length * m + (m - t) * a.length * b.length,
       3 * a.length * b.length * m⟩

/-- The threshold a suggestion must pass. -/
def threshold : Ratio := ⟨7, 10⟩

/-- The known words similar enough to a word, least similar first, in their listed order
among equals. -/
def similarWords (w : String) (known : List String) : List String :=
  let scored := (known.map fun k => (similarity w k, k)).filter fun (r, _) => threshold.lt r
  (scored.mergeSort fun x y => !y.1.lt x.1).map (·.2)

/-- The best suggestion for a word, if any. -/
def suggestion? (w : String) (known : List String) : Option String := (similarWords w known).getLast?

theorem similarity_nil_left (b : String) (h : b.toList ≠ []) : similarity "" b = ⟨0, 1⟩ := by
  simp [similarity, h]

example : similarity "" "" = ⟨1, 1⟩ := by decide

/-- The words suggested are the known words similar enough to the word given. -/
theorem mem_similarWords {w k : String} {known : List String} :
    k ∈ similarWords w known ↔ k ∈ known ∧ threshold.lt (similarity w k) = true := by
  unfold similarWords
  simp only [List.mem_map, (List.mergeSort_perm _ _).mem_iff, List.mem_filter]
  constructor
  · rintro ⟨⟨r, k'⟩, ⟨⟨k'', hk'', hpair⟩, hlt⟩, rfl⟩
    cases hpair
    exact ⟨hk'', hlt⟩
  · rintro ⟨hk, hlt⟩
    exact ⟨(similarity w k, k), ⟨⟨k, hk, rfl⟩, hlt⟩, rfl⟩

/-- A suggestion is a known word, similar enough to the word given. -/
theorem suggestion?_spec {w k : String} {known : List String} (h : suggestion? w known = some k) :
    k ∈ known ∧ threshold.lt (similarity w k) = true :=
  mem_similarWords.mp (List.mem_of_getLast? h)

example : threshold.lt (similarity "biuld" "build") = true ∧
    threshold.lt (similarity "biuld" "clean") = false := by
  decide

end BuildRecipe.Text
