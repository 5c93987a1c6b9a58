/-
Reading scripts: where a reader is in a text, what it reads next, and why a text is no script.
-/
import CoverageRun.Shell.Script
import CoverageRun.Text.Split

namespace CoverageRun.Shell

/-! ## Lexemes -/

/-- What a script is made of. -/
inductive Lexeme where
  | finish
  | newline
  /-- A mark such as a semicolon, or a reserved word. -/
  | sign (text : String)
  | word (parts : Word)
  /-- The mark of a redirection. -/
  | redirection (stream : Nat) (direction : Direction)
  /-- The mark of a redirection to the lines that follow, perhaps indented. -/
  | here (stream : Nat) (indented : Bool)

/-- How a lexeme is called in a message. -/
def Lexeme.shown : Lexeme → String
  | .finish => "end of file"
  | .newline => "newline"
  | .sign text => "\"" ++ text ++ "\""
  | .word _ => "word"
  | .redirection _ _ | .here _ _ => "redirection"

/-! ## Faults -/

/-- Why a text is no script. -/
inductive Flaw where
  | unexpected (found : Lexeme) (wanted : Option Lexeme)
  | openQuote
  | openBrace
  | openSum
  | openSubstitution
  | badLoopName
  | badFunctionName
  | badStream
  /-- What is nested is nested too deep. -/
  | tooDeep

/-- The wording of a flaw. -/
def Flaw.message : Flaw → String
  | .unexpected found none => s!"{found.shown} unexpected"
  | .unexpected found (some wanted) => s!"{found.shown} unexpected (expecting {wanted.shown})"
  | .openQuote => "Unterminated quoted string"
  | .openBrace => "Missing '\x7d'"
  | .openSum => "Missing '))'"
  | .openSubstitution => "EOF in backquote substitution"
  | .badLoopName => "Bad for loop variable"
  | .badFunctionName => "Bad function name"
  | .badStream => "Bad fd number"
  | .tooDeep => "nested too deep"

/-! ## Cursors -/

/-- A name whose text is read in its place: how long the text is that is left behind that, and
whether a blank ends it. -/
structure Replaced where
  name : String
  behind : Nat
  isBlankEnded : Bool

/-- Where a reader is: the text that is left, the line it begins on, how many lines after this one
are read already, and a lexeme read too far. Some names of commands have other texts, which are read
in their places. -/
structure Cursor where
  rest : List Char
  line : Nat
  ahead : Nat
  kept : Option Lexeme
  aliases : List (String × String)
  replaced : List Replaced

/-- A reader at the beginning of a text. -/
def Cursor.ofText (text : List Char) (aliases : List (String × String)) : Cursor :=
  ⟨text, 1, 0, none, aliases, []⟩

/-- Reading at a cursor. A flaw ends it on the line it is at. -/
abbrev Reading := StateT Cursor (Except (Nat × Flaw))

/-- Ends reading with a flaw. -/
def flaw {α : Type} (f : Flaw) : Reading α := do throw ((← get).line, f)

/-- A text without the ends of lines with a backslash before them at its head, and the number of
these. -/
def dropJoins : List Char → Nat × List Char
  | '\\' :: '\n' :: r =>
    let (n, r) := dropJoins r
    (n + 1, r)
  | r => (0, r)

namespace Reading

/-- The next character, which stays, behind lines that are joined. -/
def peek : Reading (Option Char) := do
  let c ← get
  let (joins, rest) := dropJoins c.rest
  set { c with rest, line := c.line + joins }
  return rest.head?

/-- Goes past the next character. -/
def skip : Reading Unit := do
  let c ← get
  match c.rest with
  | [] => return ()
  | '\n' :: rest => set { c with rest, line := c.line + 1 + c.ahead, ahead := 0 }
  | _ :: rest => set { c with rest }

/-- The next character, taken as it stands. -/
def takeRaw : Reading (Option Char) := do
  let first := (← get).rest.head?
  skip
  return first

/-- Whether the next character is a certain one, which is taken then. -/
def skips (c : Char) : Reading Bool := do
  if (← peek) = some c then
    skip
    return true
  else return false

/-- The characters at the head of the text for which a test holds, none of them the end of a line.
-/
def takeWhile (holds : Char → Bool) : Reading (List Char) := do
  let c ← get
  set { c with rest := c.rest.dropWhile holds }
  return c.rest.takeWhile holds

/-- Puts back a lexeme. -/
def keep (x : Lexeme) : Reading Unit := modify fun c => { c with kept := some x }

/-- Reads another text in between. -/
def within {α : Type} (text : List Char) (read : Reading α) : Reading α := do
  let c ← get
  set (Cursor.ofText text c.aliases)
  let a ← read
  set c
  return a

/-- Ends with the flaw that a lexeme should not stand where it does. -/
def unexpected {α : Type} (found : Lexeme) (wanted : Option Lexeme) : Reading α :=
  flaw (.unexpected found wanted)

end Reading

end CoverageRun.Shell
