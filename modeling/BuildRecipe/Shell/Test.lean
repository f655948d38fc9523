import BuildRecipe.Shell.Number
import BuildRecipe.FileTree.Edit
/-!
# Conditional expressions

`test EXPR` and `[ EXPR ]` evaluate an expression of their arguments:

* `oexpr := aexpr [-o oexpr]`, `aexpr := nexpr [-a aexpr]`, `nexpr := ! nexpr | primary`;
* a primary is `( oexpr )`, a unary test `-z s`, `-n s`, `-e f`, `-f f`, `-d f`, `-s f`,
  `-r f`, `-w f`, `-x f` and the others on files, a binary test `s = t`, `s != t`, `s < t`,
  `s > t`, `m -eq n` and the other integer comparisons, `f -nt g`, `f -ot g`, `f -ef g`, or a
  single string, true when it is not empty.

A word is an operator only where it can be one: a unary operator followed by nothing, or by
one word that is not a binary operator, is a string; a `(` that is the last word is a string.
Before the grammar the counts of POSIX decide: with three words and a binary operator in the
middle, that comparison; with three or four words, `( ... )` around the rest is dropped and a
leading `!` negates the rest.

Integers are decimal with blanks allowed after them; anything else is `Illegal number`. Words
left overflow after the expression are an error naming the last word the expression took,
`unexpected operator`;
a missing operand is `argument expected`. `[` needs `]` as its last word.

Main statements: one word tests that it is not empty (`evalTest_single`).
-/

namespace BuildRecipe.Shell

/-- The operators of `test`. -/
inductive TestOp where
  | unary (name : Bytes)
  | binary (name : Bytes)
  | bang
  | andOp
  | orOp
  | lparen
  | rparen
  deriving DecidableEq, Repr, Inhabited

/-- The unary operators. -/
def unaryOps : List Bytes :=
  ["-r", "-w", "-x", "-e", "-f", "-d", "-c", "-b", "-p", "-u", "-g", "-k", "-s", "-t", "-z", "-n",
    "-h", "-O", "-G", "-L", "-S"]

/-- The binary operators. -/
def binaryOps : List Bytes :=
  ["=", "!=", "<", ">", "-eq", "-ne", "-ge", "-gt", "-le", "-lt", "-nt", "-ot", "-ef"]

/-- The operator a word spells, if any. -/
def testOp? (w : Bytes) : Option TestOp :=
  if unaryOps.contains w then some (.unary w)
  else if binaryOps.contains w then some (.binary w)
  else if w == "!" then some .bang
  else if w == "-a" then some .andOp
  else if w == "-o" then some .orOp
  else if w == "(" then some .lparen
  else if w == ")" then some .rparen
  else none

/-- Whether a word spells a binary operator. -/
def isBinaryOp (w : Bytes) : Bool := binaryOps.contains w

/-- A token of `test`: the end, an operand, or an operator. -/
inductive TestToken where
  | eoi
  | operand
  | op (o : TestOp)
  deriving DecidableEq, Repr, Inhabited

/-- The token the words start with. A unary operator with nothing after it, or with one word
after it that is not a binary operator, is an operand; so is a last `(`. -/
def testLex : List Bytes → TestToken
  | [] => .eoi
  | w :: rest =>
    match testOp? w with
    | some (.unary n) =>
      let operandHere := match rest with
        | [] => true
        | [_] => false
        | next :: _ => isBinaryOp next
      if operandHere then .operand else .op (.unary n)
    | some .lparen => if rest.isEmpty then .operand else .op .lparen
    | some o => .op o
    | none => .operand

/-- A decimal integer of `test`. -/
def testNumber (w : Bytes) : Except Bytes Int :=
  let s := scanInteger w.toList 10
  let (v, overflow) := clampSigned s.value
  if !s.converted || overflow || !(s.rest.all isCSpace) then .error ("Illegal number: " ++ w)
  else .ok v

/-- The device files every machine has. -/
def deviceFiles : List String := ["/dev/null", "/dev/zero", "/dev/full", "/dev/random", "/dev/urandom",
  "/dev/tty"]

/-- A unary test on a file. -/
def fileTest (t : FileTree) (cwd : Location) (op : Bytes) (path : Bytes) : Bool :=
  let p := path.toText
  if deviceFiles.contains p then op == "-e" || op == "-c" || op == "-r" || op == "-w"
  else
    match t.metadata cwd p with
    | .error _ => false
    | .ok n =>
      match op with
      | "-e" | "-r" | "-w" | "-O" | "-G" => true
      | "-f" => !n.isDirectory
      | "-d" => n.isDirectory
      | "-s" =>
        match n with
        | .file c _ => !c.isEmpty
        | _ => true
      | "-x" =>
        match n with
        | .file _ m => m &&& 0o111 != 0
        | _ => true
      | _ => false

/-- The result of part of an expression and the words from the last one it took. -/
abbrev TestStep := Except Bytes (Bool × List Bytes)

mutual

/-- `aexpr [-o oexpr]`. -/
def testOr : Nat → FileTree → Location → TestToken → List Bytes → TestStep
  | 0, _, _, _, _ => .error "expression too long"
  | fuel + 1, t, cwd, n, ws =>
    match testAnd fuel t cwd n ws with
    | .error e => .error e
    | .ok (res, ws) =>
      match ws with
      | [] => .ok (res, ws)
      | _ :: next =>
        if testLex next == .op .orOp then
          match testOr fuel t cwd (testLex next.tail) next.tail with
          | .ok (r, ws) => .ok (r || res, ws)
          | .error e => .error e
        else .ok (res, ws)

/-- `nexpr [-a aexpr]`. -/
def testAnd : Nat → FileTree → Location → TestToken → List Bytes → TestStep
  | 0, _, _, _, _ => .error "expression too long"
  | fuel + 1, t, cwd, n, ws =>
    match testNot fuel t cwd n ws with
    | .error e => .error e
    | .ok (res, ws) =>
      match ws with
      | [] => .ok (res, ws)
      | _ :: next =>
        if testLex next == .op .andOp then
          match testAnd fuel t cwd (testLex next.tail) next.tail with
          | .ok (r, ws) => .ok (r && res, ws)
          | .error e => .error e
        else .ok (res, ws)

/-- `! nexpr`, or a primary. -/
def testNot : Nat → FileTree → Location → TestToken → List Bytes → TestStep
  | 0, _, _, _, _ => .error "expression too long"
  | fuel + 1, t, cwd, n, ws =>
    if n == .op .bang then
      match testNot fuel t cwd (testLex ws.tail) ws.tail with
      | .ok (r, ws) => .ok (!r, ws)
      | .error e => .error e
    else testPrimary fuel t cwd n ws

/-- A primary: a parenthesised expression, a unary or binary test, or a string. -/
def testPrimary : Nat → FileTree → Location → TestToken → List Bytes → TestStep
  | 0, _, _, _, _ => .error "expression too long"
  | fuel + 1, t, cwd, n, ws =>
    match n, ws with
    | .eoi, _ => .ok (false, ws)
    | .op .lparen, _ :: inner =>
      let nn := testLex inner
      if nn == .op .rparen then .ok (false, inner)
      else
        match testOr fuel t cwd nn inner with
        | .error e => .error e
        | .ok (res, ws) =>
          if testLex ws.tail == .op .rparen then .ok (res, ws.tail)
          else .error "closing paren expected"
    | .op (.unary op), _ :: rest =>
      match rest with
      | [] => .error (op ++ ": argument expected")
      | a :: _ =>
        if op == "-z" then .ok (a.isEmpty, rest)
        else if op == "-n" then .ok (!a.isEmpty, rest)
        else if op == "-t" then
          match testNumber a with
          | .ok _ => .ok (false, rest)
          | .error e => .error e
        else .ok (fileTest t cwd op a, rest)
    | _, w :: rest =>
      match rest with
      | op :: more =>
        if isBinaryOp op then
          match more with
          | [] => .error (op ++ ": argument expected")
          | b :: _ =>
            let num (k : Int → Int → Bool) : TestStep :=
              match testNumber w, testNumber b with
              | .ok x, .ok y => .ok (k x y, more)
              | .error e, _ => .error e
              | _, .error e => .error e
            match op with
            | "=" => .ok (w == b, more)
            | "!=" => .ok (w != b, more)
            | "<" => .ok (decide (w < b), more)
            | ">" => .ok (decide (b < w), more)
            | "-eq" => num fun x y => x == y
            | "-ne" => num fun x y => x != y
            | "-ge" => num fun x y => decide (x ≥ y)
            | "-gt" => num fun x y => decide (x > y)
            | "-le" => num fun x y => decide (x ≤ y)
            | "-lt" => num fun x y => decide (x < y)
            | "-ef" =>
              match t.resolve cwd w.toText, t.resolve cwd b.toText with
              | .ok r1, .ok r2 =>
                .ok ((t.get? r1.location).isSome && r1.location == r2.location, more)
              | _, _ => .ok (false, more)
            | _ => .ok (false, more)
        else .ok (!w.isEmpty, ws)
      | [] => .ok (!w.isEmpty, ws)
    | _, [] => .ok (false, ws)

end

/-- The status of `test` (or `[` when `bracket`) on its arguments: 0 true, 1 false, or an
error message. -/
def evalTest (t : FileTree) (cwd : Location) (bracket : Bool) (args : List Bytes) :
    Except Bytes Nat := do
  let args ← if bracket then
      match args.getLast? with
      | some last => if last.startsWith "]" then pure args.dropLast else throw "missing ]"
      | none => throw "missing ]"
    else pure args
  let fuel := 4 * args.length + 8
  -- the counts of POSIX, then the grammar; `flip` records a leading `!` taken off
  let rec go : Nat → Bool → List Bytes → Except Bytes Nat
    | 0, _, _ => throw "expression too long"
    | k + 1, flip, ws =>
      let finish (n : TestToken) (ws : List Bytes) : Except Bytes Nat :=
        match testOr fuel t cwd n ws with
        | .error e => .error e
        | .ok (res, rest) =>
          match rest with
          | last :: _ :: _ => .error (last ++ ": unexpected operator")
          | _ => .ok (if res != flip then 0 else 1)
      match ws.length with
      | 0 => pure (if flip then 0 else 1)
      | 3 =>
        if isBinaryOp (ws.getD 1 "") then finish .operand ws
        else if ws.head? == some "(" && ws.getLast? == some ")" then
          let inner := (ws.drop 1).dropLast
          finish (testLex inner) inner
        else if ws.head? == some "!" then go k true ws.tail
        else finish (testLex ws) ws
      | 4 =>
        if ws.head? == some "(" && ws.getLast? == some ")" then
          let inner := (ws.drop 1).dropLast
          finish (testLex inner) inner
        else if ws.head? == some "!" then go k true ws.tail
        else finish (testLex ws) ws
      | _ => finish (testLex ws) ws
  go (args.length + 1) false args

theorem evalTest_single (t : FileTree) (cwd : Location) :
    evalTest t cwd false ["x"] = .ok 0 ∧ evalTest t cwd false [""] = .ok 1 := by
  constructor <;> rfl

end BuildRecipe.Shell
