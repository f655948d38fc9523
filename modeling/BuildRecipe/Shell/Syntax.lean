import BuildRecipe.Text.Bytes
/-!
# The syntax of shell scripts

A script is read one complete command list at a time. What is read is a tree:

* a word is a list of parts: text outside quotes, quoted text, and the expansions written
  with `$` or backquotes, each marked by whether it stands inside double quotes;
* a simple command has assignments, words and redirections, and the line it starts on;
* the compound commands are the subshell `( )`, the group `{ }`, `if`, `while`/`until`,
  `for`, `case`, and a function definition `name() command`;
* a pipeline joins commands with `|`, maybe negated by `!`; an and-or list joins pipelines
  with `&&` and `||`, and runs in the background when it ends with `&`.

A here-document's body follows the line of its redirection, so the redirection names the
body by a number, and the bodies are kept beside the commands.

The tokens of the grammar are named as the shell names them in its syntax errors
(`Token.describe`): `end of file`, `newline`, `word`, `redirection`, and each operator or
reserved word in double quotes.

Main statements: every reserved word is found by its own spelling (`Keyword.ofText?_text`).
-/

namespace BuildRecipe.Shell

/-- What a parameter expansion does with its parameter; `nullToo` makes an empty value count
as unset. -/
inductive ParamOp where
  /-- `$x`, `${x}`: the value. -/
  | plain
  /-- `${#x}`: the number of bytes of the value. -/
  | length
  /-- `${x-w}`: the word when unset. -/
  | useDefault (nullToo : Bool)
  /-- `${x=w}`: the word when unset, assigned to the parameter. -/
  | assignDefault (nullToo : Bool)
  /-- `${x?w}`: an error when unset. -/
  | errorIfUnset (nullToo : Bool)
  /-- `${x+w}`: the word when set. -/
  | useAlternative (nullToo : Bool)
  /-- `${x%w}`, `${x%%w}`: the value without its shortest or longest suffix matching `w`. -/
  | removeSuffix (longest : Bool)
  /-- `${x#w}`, `${x##w}`: the value without its shortest or longest prefix matching `w`. -/
  | removePrefix (longest : Bool)
  /-- A form the shell refuses when it comes to expand it. -/
  | bad
  deriving DecidableEq, Repr, Inhabited

/-- What a redirection does with its descriptor. -/
inductive RedirKind where
  /-- `<`: read a file. -/
  | input
  /-- `>`: create or truncate a file. -/
  | output
  /-- `>|`: the same, even where clobbering is refused. -/
  | clobber
  /-- `>>`: append to a file. -/
  | append
  /-- `<>`: open a file to read and write. -/
  | readWrite
  /-- `<&`: duplicate a descriptor to read. -/
  | dupInput
  /-- `>&`: duplicate a descriptor to write. -/
  | dupOutput
  deriving DecidableEq, Repr, Inhabited

mutual

/-- A part of a word. -/
inductive Part where
  /-- Text outside quotes: patterns apply to it, splitting does not. -/
  | literal (text : Bytes)
  /-- Quoted text: taken as it is. -/
  | quoted (text : Bytes)
  /-- A parameter expansion. -/
  | param (name : Bytes) (op : ParamOp) (word : List Part) (inQuotes : Bool)
  /-- A command substitution. -/
  | command (body : List AndOr) (inQuotes : Bool)
  /-- An arithmetic expansion of the text its parts give. -/
  | arith (expr : List Part) (inQuotes : Bool)

/-- A redirection of a descriptor. -/
inductive Redirect where
  /-- To or from a file, or a descriptor for the duplicating kinds. -/
  | file (fd : Nat) (kind : RedirKind) (target : List Part)
  /-- From a here-document, given by its number. -/
  | here (fd : Nat) (body : Nat)

/-- One arm of an `if` or `elif`: the condition and the commands it guards. -/
inductive Branch where
  | mk (condition : List AndOr) (body : List AndOr)

/-- One arm of a `case`: its patterns and its commands. -/
inductive CaseArm where
  | mk (patterns : List (List Part)) (body : List AndOr)

/-- A command. -/
inductive Command where
  | simple (assigns : List (List Part)) (words : List (List Part)) (redirs : List Redirect)
      (line : Nat)
  | subshell (body : List AndOr) (redirs : List Redirect) (line : Nat)
  | group (body : List AndOr) (redirs : List Redirect)
  | ifThen (branches : List Branch) (otherwise : Option (List AndOr)) (redirs : List Redirect)
  | loop (untilZero : Bool) (condition : List AndOr) (body : List AndOr)
      (redirs : List Redirect)
  | forEach (name : Bytes) (words : Option (List (List Part))) (body : List AndOr)
      (redirs : List Redirect) (line : Nat)
  | caseOf (subject : List Part) (arms : List CaseArm) (redirs : List Redirect) (line : Nat)
  | function (name : Bytes) (body : Command) (line : Nat)

/-- Commands joined by pipes, the status negated when `negated`. -/
inductive Pipeline where
  | mk (negated : Bool) (commands : List Command)

/-- How a pipeline follows the one before it in an and-or list. -/
inductive Link where
  /-- `&&`: run when the one before succeeded. -/
  | andThen (next : Pipeline)
  /-- `||`: run when the one before failed. -/
  | orElse (next : Pipeline)

/-- Pipelines joined by `&&` and `||`, run in the background when `background`. -/
inductive AndOr where
  | mk (first : Pipeline) (rest : List Link) (background : Bool)

end

/-- A word. -/
abbrev Word := List Part

/-- The reserved words, and `!`, `{` and `}`. -/
inductive Keyword where
  | bang
  | caseWord
  | doWord
  | doneWord
  | elifWord
  | elseWord
  | esacWord
  | fiWord
  | forWord
  | ifWord
  | inWord
  | thenWord
  | untilWord
  | whileWord
  | openBrace
  | closeBrace
  deriving DecidableEq, Repr, Inhabited

namespace Keyword

/-- The spelling of a reserved word. -/
def text : Keyword → String
  | bang => "!"
  | caseWord => "case"
  | doWord => "do"
  | doneWord => "done"
  | elifWord => "elif"
  | elseWord => "else"
  | esacWord => "esac"
  | fiWord => "fi"
  | forWord => "for"
  | ifWord => "if"
  | inWord => "in"
  | thenWord => "then"
  | untilWord => "until"
  | whileWord => "while"
  | openBrace => "\x7b"
  | closeBrace => "\x7d"

/-- Every reserved word. -/
def all : List Keyword :=
  [bang, caseWord, doWord, doneWord, elifWord, elseWord, esacWord, fiWord, forWord, ifWord, inWord, thenWord, untilWord, whileWord,
    openBrace, closeBrace]

/-- The reserved word of a spelling. -/
def ofText? (s : String) : Option Keyword := all.find? (·.text == s)

/-- Whether a reserved word ends a command list. -/
def endsList : Keyword → Bool
  | doWord | doneWord | elifWord | elseWord | esacWord | fiWord | thenWord | closeBrace => true
  | _ => false

theorem ofText?_text (k : Keyword) : ofText? k.text = some k := by
  cases k <;> rfl

end Keyword

/-- What a redirection operator is. -/
inductive RedirOp where
  | plain (kind : RedirKind)
  /-- `<<` or, stripping leading tabs, `<<-`. -/
  | hereDoc (stripTabs : Bool)
  deriving DecidableEq, Repr, Inhabited

/-- A word as read: its parts, and whether any of it was quoted. -/
structure WordToken where
  parts : Word
  quoted : Bool

/-- A token of the grammar. -/
inductive Token where
  | eof
  | newline
  | semi
  | amp
  | andIf
  | orIf
  | pipe
  | lparen
  | rparen
  | dsemi
  | redirect (fd : Option Nat) (op : RedirOp)
  | word (w : WordToken)
  | keyword (k : Keyword)

namespace Token

/-- How a syntax error names a token. -/
def describe : Token → String
  | eof => "end of file"
  | newline => "newline"
  | semi => "\";\""
  | amp => "\"&\""
  | andIf => "\"&&\""
  | orIf => "\"||\""
  | pipe => "\"|\""
  | lparen => "\"(\""
  | rparen => "\")\""
  | dsemi => "\";;\""
  | redirect _ _ => "redirection"
  | word _ => "word"
  | keyword k => "\"" ++ k.text ++ "\""

/-- Whether a token ends a command list. -/
def endsList : Token → Bool
  | eof | rparen | dsemi => true
  | keyword k => k.endsList
  | _ => false

end Token

/-- The text of a word written without quotes or expansions. -/
def Word.plainText? : Word → Option Bytes
  | [.literal s] => some s
  | _ => none

/-- Whether a byte may start a name. -/
def isNameStart (c : Char) : Bool := c.isAlpha || c == '_'

/-- Whether a byte may continue a name. -/
def isNameChar (c : Char) : Bool := c.isAlphanum || c == '_'

/-- Whether a text is a name: a letter or `_`, then letters, digits and `_`. -/
def isName (s : Bytes) : Bool :=
  match s.toList with
  | c :: cs => isNameStart c && cs.all isNameChar
  | [] => false

/-- The name an assignment word sets, and the parts of its value: the word must start with
unquoted text `name=`. -/
def Word.assignment? : Word → Option (Bytes × Word)
  | .literal s :: rest =>
    let cs := s.toList
    let name := cs.takeWhile (· != '=')
    if name.length < cs.length && isName (String.ofList name) then
      let value := String.ofList (cs.drop (name.length + 1))
      some (String.ofList name, if value.isEmpty then rest else .literal value :: rest)
    else none
  | _ => none

end BuildRecipe.Shell
