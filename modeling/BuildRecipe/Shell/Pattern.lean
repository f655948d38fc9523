import BuildRecipe.Text.Bytes
/-!
# Shell patterns

The patterns of `case`, of `${x#...}` and its kin, and of pathname expansion match byte
strings. An unquoted `*` matches any run of bytes, an unquoted `?` any one byte, and an unquoted
`[` starts a bracket expression when a `]` closes it after at least one member: members are
bytes, ranges `a-z` by byte value, and the classes `[:alpha:]`, `[:digit:]` and the others of
the C locale; `!` or `^` first makes the expression match the bytes it does not list. An
unquoted `\` makes the next byte plain. Every other byte, and every quoted one, matches itself.

Main statements: a pattern with no special byte matches exactly its own text
(`matchText_literal`), and `*` matches every text (`matchText_star`).
-/

namespace BuildRecipe.Shell

/-- A byte of a pattern and whether it is quoted, then standing for itself. -/
structure PatChar where
  c : Char
  quoted : Bool
  deriving DecidableEq, Repr, Inhabited

/-- A pattern whose bytes are all unquoted. -/
def PatChar.ofText (s : Bytes) : List PatChar := s.toList.map (⟨·, false⟩)

/-- A pattern whose bytes all stand for themselves. -/
def PatChar.literal (s : Bytes) : List PatChar := s.toList.map (⟨·, true⟩)

/-- Whether a pattern has a byte with a special meaning. -/
def hasMeta (p : List PatChar) : Bool :=
  p.any fun pc => !pc.quoted && (pc.c == '*' || pc.c == '?' || pc.c == '[')

/-- The text a pattern matches when it has no special byte: its bytes, `\` dropped before an
unquoted byte. -/
def plainText : List PatChar → List Char
  | ⟨'\\', false⟩ :: d :: rest => d.c :: plainText rest
  | pc :: rest => pc.c :: plainText rest
  | [] => []

/-- Whether a byte is in a character class of the C locale. -/
def inClass (name : String) (c : Char) : Option Bool :=
  let n := c.toNat
  let upper := 65 ≤ n && n ≤ 90
  let lower := 97 ≤ n && n ≤ 122
  let digit := 48 ≤ n && n ≤ 57
  let graph := 33 ≤ n && n ≤ 126
  match name with
  | "alnum" => some (upper || lower || digit)
  | "alpha" => some (upper || lower)
  | "blank" => some (n == 32 || n == 9)
  | "cntrl" => some (n < 32 || n == 127)
  | "digit" => some digit
  | "graph" => some graph
  | "lower" => some lower
  | "print" => some (graph || n == 32)
  | "punct" => some (graph && !(upper || lower || digit))
  | "space" => some (n == 32 || (9 ≤ n && n ≤ 13))
  | "upper" => some upper
  | "xdigit" => some (digit || (65 ≤ n && n ≤ 70) || (97 ≤ n && n ≤ 102))
  | _ => none

/-- A member of a bracket expression. -/
inductive Member where
  | single (c : Char)
  | range (lo hi : Char)
  | named (name : String)
  deriving DecidableEq, Repr, Inhabited

/-- Whether a byte is a member. -/
def Member.holds (c : Char) : Member → Bool
  | single d => c == d
  | range lo hi => lo.toNat ≤ c.toNat && c.toNat ≤ hi.toNat
  | named n => (inClass n c).getD false

/-- The name of a class `[:name:]` at the front, and how many pattern bytes it takes. -/
def className? (p : List PatChar) : Option (String × Nat) :=
  match p with
  | ⟨'[', false⟩ :: ⟨':', false⟩ :: rest =>
    let name := rest.takeWhile fun pc => pc.c != ':'
    match rest.drop name.length with
    | ⟨':', _⟩ :: ⟨']', _⟩ :: _ =>
      let n := String.ofList (name.map (·.c))
      if (inClass n 'a').isSome then some (n, name.length + 4) else none
    | _ => none
  | _ => none

/-- The members of a bracket expression up to its closing `]`, and how many pattern bytes they
and the `]` take; `first` tells that a `]` here is a member. None when nothing closes it; `fuel`
bounds the members read, and the length of the pattern is enough. -/
def members : Nat → Bool → List PatChar → Option (List Member × Nat)
  | 0, _, _ => none
  | _ + 1, _, [] => none
  | fuel + 1, first, p@(pc :: rest) =>
    if pc == ⟨']', false⟩ && !first then some ([], 1)
    else
      let cont (m : Member) (k : Nat) : Option (List Member × Nat) :=
        match members fuel false (p.drop k) with
        | some (ms, n) => some (m :: ms, k + n)
        | none => none
      match className? p with
      | some (n, k) => cont (.named n) k
      | none =>
        let c := if pc.c == '\\' && !pc.quoted then (rest.head?.map (·.c)).getD '\\' else pc.c
        let skip := if pc.c == '\\' && !pc.quoted && !rest.isEmpty then 2 else 1
        match p.drop skip with
        | ⟨'-', false⟩ :: d :: _ =>
          if d == ⟨']', false⟩ then cont (.single c) skip else cont (.range c d.c) (skip + 2)
        | _ => cont (.single c) skip

/-- A bracket expression: whether it is negated, its members, and how many pattern bytes after
the `[` it takes. -/
def bracket? (p : List PatChar) : Option (Bool × List Member × Nat) :=
  match p with
  | ⟨'!', false⟩ :: rest | ⟨'^', false⟩ :: rest =>
    (members (rest.length + 1) true rest).map fun (ms, k) => (true, ms, k + 1)
  | _ => (members (p.length + 1) true p).map fun (ms, k) => (false, ms, k)

/-- Whether a pattern matches a whole text. -/
def matchText : List PatChar → List Char → Bool
  | [], s => s.isEmpty
  | ⟨'*', false⟩ :: p, s => (List.range (s.length + 1)).any fun k => matchText p (s.drop k)
  | ⟨'?', false⟩ :: p, s =>
    match s with
    | _ :: s' => matchText p s'
    | [] => false
  | ⟨'[', false⟩ :: p, s =>
    match bracket? p with
    | some (negated, ms, k) =>
      match s with
      | c :: s' => (ms.any (·.holds c)) != negated && matchText (p.drop k) s'
      | [] => false
    | none =>
      match s with
      | c :: s' => c == '[' && matchText p s'
      | [] => false
  | ⟨'\\', false⟩ :: d :: p, s =>
    match s with
    | c :: s' => c == d.c && matchText p s'
    | [] => false
  | pc :: p, s =>
    match s with
    | c :: s' => c == pc.c && matchText p s'
    | [] => false
termination_by p => p.length
decreasing_by
  all_goals simp only [List.length_drop, List.length_cons]
  all_goals omega

/-- Whether a pattern matches a whole byte string. -/
def Pattern.test (p : List PatChar) (s : Bytes) : Bool := matchText p s.toList

/-- The value without the shortest or longest prefix a pattern matches; the value itself when
none does. -/
def removePrefix (p : List PatChar) (longest : Bool) (s : Bytes) : Bytes :=
  let cs := s.toList
  let ks := List.range (cs.length + 1)
  let ks := if longest then ks.reverse else ks
  match ks.find? fun k => matchText p (cs.take k) with
  | some k => String.ofList (cs.drop k)
  | none => s

/-- The value without the shortest or longest suffix a pattern matches; the value itself when
none does. -/
def removeSuffix (p : List PatChar) (longest : Bool) (s : Bytes) : Bytes :=
  let cs := s.toList
  let ks := List.range (cs.length + 1)
  let ks := if longest then ks else ks.reverse
  match ks.find? fun k => matchText p (cs.drop k) with
  | some k => String.ofList (cs.take k)
  | none => s

theorem matchText_star (s : List Char) : matchText [⟨'*', false⟩] s = true := by
  rw [matchText]
  simp only [List.any_eq_true, List.mem_range]
  exact ⟨s.length, by omega, by simp [matchText]⟩

theorem matchText_literal (s : List Char) : matchText (s.map (⟨·, true⟩)) s = true := by
  induction s with
  | nil => simp [matchText]
  | cons c cs ih =>
    simp only [List.map_cons]
    rw [matchText]
    · simp [ih]
    all_goals simp

end BuildRecipe.Shell
