import BuildRecipe.Utility.Basic
import BuildRecipe.Text.Printable
/-!
# Translating bytes

`tr SET1 [SET2]` copies standard input to standard output, changing or deleting bytes. A set
is written with backslash escapes (`\n`, `\t`, `\\`, `\NNN` in octal and the others of C),
ranges `a-z`, classes `[:alpha:]` and the other eleven of the `C` locale, the class of one
byte `[=c=]`, and in the second set repeats `[c*N]` and `[c*]`, which fills it out to the
first's length.

* Translating maps each byte of SET1 to the byte at the same place in SET2, which is
  lengthened with its last byte, or with `-t` SET1 is cut to SET2's length. When a byte is in
  SET1 twice, its last place decides.
* `-d` deletes the bytes of SET1; `-s` squeezes each run of one byte of the last set given
  into one; `-c` takes the bytes not in SET1, in byte order.

Main statements: a range is every byte from its first to its last (`mem_expandSet_range`), and
squeezing leaves no byte of its set twice in a row (`squeeze_no_repeat`).
-/

namespace BuildRecipe.Utilities

/-- A part of a set as written: one byte, a range, a class, or a repeat for the second set. -/
inductive SetPart where
  | byte (c : Char)
  | range (lo hi : Char)
  | named (name : String)
  | repeated (c : Char) (times : Option Nat)
  deriving DecidableEq, Repr, Inhabited

/-- The bytes of a class of the `C` locale, in byte order. -/
def classBytes (name : String) : Option (List Char) :=
  let all := (List.range 256).map Char.ofNat
  let pick (p : Char → Bool) : List Char := all.filter p
  let upper (c : Char) : Bool := 'A' ≤ c && c ≤ 'Z'
  let lower (c : Char) : Bool := 'a' ≤ c && c ≤ 'z'
  let digit (c : Char) : Bool := '0' ≤ c && c ≤ '9'
  let graph (c : Char) : Bool := 33 ≤ c.toNat && c.toNat ≤ 126
  match name with
  | "alpha" => some (pick fun c => upper c || lower c)
  | "upper" => some (pick upper)
  | "lower" => some (pick lower)
  | "digit" => some (pick digit)
  | "alnum" => some (pick fun c => upper c || lower c || digit c)
  | "xdigit" => some (pick fun c => digit c || ('a' ≤ c && c ≤ 'f') || ('A' ≤ c && c ≤ 'F'))
  | "space" => some (pick fun c => c == ' ' || (9 ≤ c.toNat && c.toNat ≤ 13))
  | "blank" => some (pick fun c => c == ' ' || c == '\t')
  | "punct" => some (pick fun c => graph c && !(upper c || lower c || digit c))
  | "print" => some (pick fun c => 32 ≤ c.toNat && c.toNat ≤ 126)
  | "graph" => some (pick graph)
  | "cntrl" => some (pick fun c => c.toNat < 32 || c.toNat == 127)
  | _ => none

/-- One byte of a set's text, its escape read: the byte and the text after it. -/
def setByte : List Char → Option (Char × List Char)
  | [] => none
  | '\\' :: rest =>
    match rest with
    | [] => some ('\\', [])
    | c :: more =>
      if '0' ≤ c && c ≤ '7' then
        let ds := (rest.takeWhile fun d => '0' ≤ d && d ≤ '7').take 3
        let v := ds.foldl (fun n d => 8 * n + (d.toNat - 48)) 0
        -- a value past a byte takes only two digits
        if v > 255 then
          let v2 := (ds.take 2).foldl (fun n d => 8 * n + (d.toNat - 48)) 0
          some (Char.ofNat v2, rest.drop 2)
        else some (Char.ofNat v, rest.drop ds.length)
      else
        let e := match c with
          | 'n' => '\n'
          | 't' => '\t'
          | 'r' => '\r'
          | 'a' => Char.ofNat 7
          | 'b' => Char.ofNat 8
          | 'f' => Char.ofNat 12
          | 'v' => Char.ofNat 11
          | other => other
        some (e, more)
  | c :: rest => some (c, rest)

/-- The parts of a set's text, or the complaint about it. -/
def setParts (fuel : Nat) (text : List Char) : Except String (List SetPart) :=
  match fuel with
  | 0 => .ok []
  | fuel + 1 =>
    match text with
    | [] => .ok []
    | '[' :: ':' :: rest =>
      let name := rest.takeWhile (· != ':')
      match rest.drop name.length with
      | ':' :: ']' :: after =>
        if (classBytes (String.ofList name)).isSome then
          (setParts fuel after).map (SetPart.named (String.ofList name) :: ·)
        else .error ("invalid character class " ++ quoted (String.ofList name))
      | _ => literal fuel text
    | '[' :: '=' :: rest =>
      match setByte rest with
      | some (c, '=' :: ']' :: after) => (setParts fuel after).map (SetPart.byte c :: ·)
      | _ => literal fuel text
    | '[' :: rest =>
      match setByte rest with
      | some (c, '*' :: more) =>
        let ds := more.takeWhile Char.isDigit
        match more.drop ds.length with
        | ']' :: after =>
          let times := if ds.isEmpty then none
            else if ds.head? == some '0' then
              some (ds.foldl (fun n d => 8 * n + (d.toNat - 48)) 0)
            else some (String.ofList ds).toNat!
          let times := if times == some 0 then none else times
          (setParts fuel after).map (SetPart.repeated c times :: ·)
        | _ => literal fuel text
      | _ => literal fuel text
    | _ => literal fuel text
where
  /-- A byte, or a range starting with it. -/
  literal (fuel : Nat) (text : List Char) : Except String (List SetPart) :=
    match setByte text with
    | none => .ok []
    | some (lo, '-' :: more) =>
      match setByte more with
      | some (hi, after) =>
        if hi < lo then
          .error ("range-endpoints of " ++ quoted (String.ofList (text.take (text.length - after.length))) ++
            " are in reverse collating sequence order")
        else (setParts fuel after).map (SetPart.range lo hi :: ·)
      | none => (setParts fuel more).map (fun ps => SetPart.byte lo :: SetPart.byte '-' :: ps)
    | some (c, after) => (setParts fuel after).map (SetPart.byte c :: ·)

/-- The bytes a set stands for, a fill repeat taking `fill` places. -/
def expandSet (parts : List SetPart) (fill : Nat) : List Char :=
  parts.flatMap fun
    | .byte c => [c]
    | .range lo hi => ((List.range (hi.toNat + 1 - lo.toNat)).map fun i => Char.ofNat (lo.toNat + i))
    | .named n => (classBytes n).getD []
    | .repeated c (some k) => List.replicate k c
    | .repeated c none => List.replicate fill c

/-- The length of a set without its fill repeats. -/
def fixedLength (parts : List SetPart) : Nat := (expandSet parts 0).length

/-- One byte squeezed onto the bytes kept so far, newest first: dropped when it repeats the
byte before it and is in `set`. -/
def squeezeStep (set : List Char) (acc : List Char) (c : Char) : List Char :=
  match acc with
  | prev :: _ => if prev == c && set.contains c then acc else c :: acc
  | [] => [c]

/-- Squeeze each run of one byte of `set` into one. -/
def squeeze (set : List Char) (cs : List Char) : List Char :=
  (cs.foldl (squeezeStep set) []).reverse

/-- The options of `tr`. -/
def trTable : OptionTable where
  flags := ['c', 'C', 'd', 's', 't']
  valued := []
  long := [longOf "complement" "c" .none, longOf "delete" "d" .none,
    longOf "squeeze-repeats" "s" .none, longOf "truncate-set1" "t" .none] ++ commonLong

/-- The translation of standard input by `tr`, its options read and its sets given. -/
def translateWith (inv : Invocation) (files : FileTree) (r : ReadArgs) (sets : List Bytes) :
    Completion :=
  let complement := r.hasAny ['c', 'C']
  let delete := r.has "d"
  let squeezing := r.has "s"
  let parsed := sets.mapM fun s => setParts (s.length + 1) s.toList
  match parsed with
  | .error m => ended files 1 "" (inv.program ++ ": " ++ m ++ "\n")
  | .ok parts =>
    let set1 := expandSet (parts.headD []) 0
    let set1 := if complement then
        ((List.range 256).map Char.ofNat).filter fun c => !set1.contains c
      else set1
    let input := inv.stdin.toList
    match parts with
    | [_] =>
      let out := if delete then input.filter fun c => !set1.contains c
        else squeeze set1 input
      ended files 0 (String.ofList out) ""
    | [_, p2] =>
      if delete then
        let kept := input.filter fun c => !set1.contains c
        ended files 0 (String.ofList (squeeze (expandSet p2 0) kept)) ""
      else
        let fill := set1.length - min set1.length (fixedLength p2)
        let set2 := expandSet p2 fill
        let set1 := if r.has "t" then set1.take set2.length else set1
        let set2 := match set2.getLast? with
          | some last => set2 ++ List.replicate (set1.length - min set1.length set2.length) last
          | none => set2
        let pairs := set1.zip set2
        let mapped := input.map fun c =>
          match (pairs.filter (·.1 == c)).getLast? with
          | some (_, d) => d
          | none => c
        let out := if squeezing then squeeze set2 mapped else mapped
        ended files 0 (String.ofList out) ""
    | _ => ended files 0 inv.stdin ""

/-- `tr`: one set to delete or squeeze, two to translate, or to delete and squeeze. -/
def translate (inv : Invocation) (files : FileTree) : Completion :=
  withOptions inv files trTable 1 fun r =>
  let delete := r.has "d"
  let squeezing := r.has "s"
  let refuse (m : Bytes) : Completion := ended files 1 "" (usage inv.program m)
  let needTwo := !delete && !squeezing || (delete && squeezing)
  match r.operands with
  | [] => refuse "missing operand"
  | [one] =>
    if needTwo then
      let what := if delete then "Two strings must be given when both deleting and squeezing repeats."
        else "Two strings must be given when translating."
      ended files 1 "" (inv.program ++ ": missing operand after " ++ quoted one ++ "\n" ++ what ++ "\n" ++
        helpHint inv.program)
    else translateWith inv files r [one]
  | [a, b] =>
    if delete && !squeezing then
      ended files 1 "" (inv.program ++ ": extra operand " ++ quoted b ++ "\n" ++
        "Only one string may be given when deleting without squeezing repeats.\n" ++ helpHint inv.program)
    else translateWith inv files r [a, b]
  | _ :: _ :: extra :: _ => refuse ("extra operand " ++ quoted extra)

/-- One step of squeezing keeps the bytes kept free of a byte of the set twice in a row. -/
theorem squeezeStep_no_repeat {set acc : List Char} (c : Char)
    (hacc : ∀ x ∈ set, ¬ [x, x] <:+: acc) : ∀ x ∈ set, ¬ [x, x] <:+: squeezeStep set acc c := by
  intro x hx hin
  unfold squeezeStep at hin
  cases acc with
  | nil => simp [List.infix_cons_iff] at hin
  | cons prev rest =>
    simp only at hin
    split at hin
    · exact hacc x hx hin
    · rename_i hnot
      rcases List.infix_cons_iff.mp hin with hpre | hin'
      · -- the only new pair is the byte and the one kept before it
        simp only [List.cons_prefix_cons, List.nil_prefix, and_true] at hpre
        obtain ⟨rfl, rfl⟩ := hpre
        simp_all
      · exact hacc x hx hin'

/-- `tr -s` leaves no byte of its set twice in a row. The induction is on the input, the bytes
kept so far free of such a pair. -/
theorem squeeze_no_repeat (set cs : List Char) : ∀ x ∈ set, ¬ [x, x] <:+: squeeze set cs := by
  have hrun : ∀ (l acc : List Char), (∀ x ∈ set, ¬ [x, x] <:+: acc) →
      ∀ x ∈ set, ¬ [x, x] <:+: l.foldl (squeezeStep set) acc := by
    intro l
    induction l with
    | nil => exact fun acc h => h
    | cons c l ih => exact fun acc h => ih _ (squeezeStep_no_repeat c h)
  intro x hx hin
  unfold squeeze at hin
  -- a pair read backwards is the same pair
  rw [← List.reverse_infix, List.reverse_reverse] at hin
  exact hrun cs [] (fun x _ h => by simp at h) x hx (by simpa using hin)

/-- A range of a set is every byte from its first to its last. -/
theorem mem_expandSet_range {lo hi c : Char} (fill : Nat) (hhi : hi.toNat < 0xD800) :
    c ∈ expandSet [.range lo hi] fill ↔ lo.toNat ≤ c.toNat ∧ c.toNat ≤ hi.toNat := by
  simp only [expandSet, List.flatMap_cons, List.flatMap_nil, List.append_nil, List.mem_map,
    List.mem_range]
  constructor
  · rintro ⟨i, hi', rfl⟩
    rw [Text.toNat_ofNat_of_scalar (Or.inl (by omega))]
    omega
  · rintro ⟨h1, h2⟩
    exact ⟨c.toNat - lo.toNat, by omega, by rw [Nat.add_sub_cancel' h1, Char.ofNat_toNat]⟩

example : expandSet [.range 'a' 'c'] 0 = ['a', 'b', 'c'] ∧
    squeeze "a".toList "aab  bba".toList = "ab  bba".toList := by
  decide

end BuildRecipe.Utilities
