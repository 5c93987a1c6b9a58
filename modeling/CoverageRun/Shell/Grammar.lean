/-
Reading commands: lists of them, line by line, with the marks and reserved words that hold them
together.
-/
import CoverageRun.Shell.Words

namespace CoverageRun.Shell

open Reading

/-! ## Lexemes -/

/-- The marks, those of two characters first. -/
def marks : List (List Char) :=
  [['&', '&'], ['|', '|'], [';', ';'], ['&'], ['|'], [';'], ['('], [')']]

/-- Goes past blanks and a comment. -/
def skipSpace : Nat → Reading Unit
  | 0 => return ()
  | fuel + 1 => do
    match ← peek with
    | some '#' =>
      let _ ← takeWhile (· != '\n')
    | some c =>
      if isSpace c then
        skip
        skipSpace fuel
    | none => return ()

/-- Reads a mark that begins with a character. -/
def readMark? (c : Char) : Reading (Option Lexeme) := do
  match marks.filter fun m => m.head? == some c with
  | [[_]] =>
    skip
    return some (.sign c.toString)
  | [long, _] =>
    skip
    if ← skips ((long.drop 1).headD c) then return some (.sign (String.ofList long))
    else return some (.sign c.toString)
  | _ => return none

/-- Reads the mark of a redirection, the stream of which may be given. -/
def readDirection? (stream : Option Nat) : Reading (Option Lexeme) := do
  let lead (usual : Nat) (d : Direction) : Option Lexeme :=
    some (.redirection (stream.getD usual) d)
  if ← skips '>' then
    if ← skips '>' then return lead 1 .append
    else if ← skips '|' then return lead 1 .replace
    else if ← skips '&' then return lead 1 .copy
    else return lead 1 .write
  else if ← skips '<' then
    if ← skips '<' then
      let indented ← skips '-'
      return some (.here (stream.getD 0) indented)
    else if ← skips '&' then return lead 0 .copy
    else if ← skips '>' then return lead 0 .both
    else return lead 0 .read
  else return none

/-- The number of the stream that a word names which a redirection follows directly. -/
def streamOf? (w : Word) : Option Nat :=
  match w with
  | [.literal [c] false] => if isDigit c then some (c.toNat - '0'.toNat) else none
  | _ => none

/-- Reads a lexeme, words in a region. -/
def readLexeme (script : Reading Script) (fuel : Nat) (region : Region) : Reading Lexeme := do
  skipSpace fuel
  match ← peek with
  | none => return .finish
  | some '\n' =>
    skip
    return .newline
  | some c =>
    match ← readMark? c with
    | some mark => return mark
    | none =>
      match ← readDirection? none with
      | some d => return d
      | none =>
        let w ← readPieces script fuel region
        match streamOf? w with
        | none => return .word w
        | some n => return (← readDirection? (some n)).getD (.word w)

/-! ## Reserved words -/

/-- The words that are reserved where a command begins. -/
def reservedWords : List String :=
  ["!", "case", "do", "done", "elif", "else", "esac", "fi", "for", "if", "in", "then", "until",
    "while", "\x7b", "\x7d"]

/-- The marks and words at which commands end without one more. -/
def closers : List String :=
  [")", ";;", "do", "done", "elif", "else", "esac", "fi", "then", "\x7d"]

/-- A word as the reserved word it is. -/
def Lexeme.reserved (x : Lexeme) : Lexeme :=
  match x with
  | .word w =>
    match Word.bare? w with
    | some text => if reservedWords.contains text then .sign text else x
    | none => x
  | x => x

/-- How the next lexeme is read: whether ends of lines are passed over, whether words may be
reserved, and whether they may be names that have other texts. -/
structure Look where
  lines : Bool
  reserved : Bool
  named : Bool

/-- Words as they stand. -/
def Look.plain : Look := ⟨false, false, false⟩

/-- Names of commands. -/
def Look.name : Look := ⟨false, false, true⟩

/-- Reserved words and names, on this line. -/
def Look.onLine : Look := ⟨false, true, true⟩

/-- Reserved words and names, on this line or further down. -/
def Look.anywhere : Look := ⟨true, true, true⟩

/-- Reads lexemes up to one that is no end of a line. -/
def readOnward (read : Reading Lexeme) : Nat → Reading Lexeme
  | 0 => flaw .tooDeep
  | fuel + 1 => do
    match ← read with
    | .newline => readOnward read fuel
    | x => return x

/-- Puts the text of a name in its place, unless that text is being read, and tells whether it did.
A name counts where `isNamed` says so, or behind a text that a blank ends. -/
def replaces (isNamed : Bool) (before : Cursor) (x : Lexeme) : Reading Bool := do
  let c ← get
  let size := c.rest.length
  let isBehind := c.replaced.any fun a =>
    a.isBlankEnded && a.behind ≤ before.rest.length && size < a.behind
  let replaced := c.replaced.filter fun a => a.behind ≤ size
  set { c with replaced }
  let name? := match x with
    | .word w => if isNamed || isBehind then Word.bare? w else none
    | _ => none
  match name?.bind fun name => (c.aliases.lookup name).map (name, ·) with
  | none => return false
  | some (name, text) =>
    if replaced.any fun a => a.name == name then return false
    else
      let text := text.toList
      let isBlankEnded := (text.getLast?.map fun e => e == ' ' || e == '\t').getD false
      set { c with rest := text ++ c.rest, replaced := ⟨name, size, isBlankEnded⟩ :: replaced }
      return true

/-- Reads a lexeme, and anew where the text of a name is put in its place. -/
def readReplaced (read : Reading Lexeme) : Nat → Bool → Reading Lexeme
  | 0, _ => flaw .tooDeep
  | fuel + 1, isNamed => do
    let before ← get
    let x ← read
    if (← get).aliases.isEmpty then return x
    else if ← replaces isNamed before x then readReplaced read fuel true
    else return x

/-- The next lexeme. -/
def next (script : Reading Script) (fuel : Nat) (look : Look) : Reading Lexeme := do
  let read : Reading Lexeme := do
    match (← get).kept with
    | some x =>
      modify fun c => { c with kept := none }
      return x
    | none => readLexeme script fuel .bare
  let onward := if look.lines then readOnward read fuel else read
  let marked : Reading Lexeme := do
    let x ← onward
    return if look.reserved then x.reserved else x
  readReplaced marked fuel look.named

/-- Takes the next lexeme, which must be a certain reserved word or mark. -/
def demand (script : Reading Script) (fuel : Nat) (look : Look) (text : String) :
    Reading Unit := do
  match ← next script fuel look with
  | .sign t => if t = text then return () else unexpected (.sign t) (some (.sign text))
  | x => unexpected x (some (.sign text))

/-! ## Redirections -/

/-- Cuts the lines of a text before the first one that is `last`, which goes too, and counts them.
Blanks at the head of lines do not count where `indented` says so. -/
def cutLines (indented : Bool) (last : List Char) :
    List (List Char) → List Char × List (List Char) × Nat
  | [] => ([], [], 0)
  | line :: rest =>
    let line := if indented then line.dropWhile (· == '\t') else line
    if line = last then ([], rest, 1)
    else
      let (inside, after, n) := cutLines indented last rest
      (if rest = [] then line else line ++ '\n' :: inside, after, n + 1)

/-- Takes the text that stands between the end of this line and a line that is `last`. -/
def takeLines (indented : Bool) (last : List Char) : Reading (List Char) := do
  let c ← get
  let line := c.rest.takeWhile (· ≠ '\n')
  let (inside, rest, n) :=
    cutLines indented last (Text.split '\n' (c.rest.drop (line.length + 1)))
  if line.length < c.rest.length then
    set { c with rest := line ++ '\n' :: Text.join ['\n'] rest, ahead := c.ahead + n }
  return inside

/-- Reads what a mark of a redirection leads to. The lines of a text are as they stand where a part
of the word that ends them is quoted. -/
def readRedirection (script : Reading Script) (fuel : Nat) (mark : Lexeme) :
    Reading Redirection := do
  match mark with
  | .here stream indented =>
    match ← readLexeme script fuel .delimiter with
    | .word w =>
      let (last, isQuoted) := plainOf w
      let c ← get
      let line := c.line + c.ahead + 1
      let text ← takeLines indented last
      if isQuoted then return .mk stream .here [.literal text true]
      else
        let inside : Reading Word := do
          modify fun c => { c with line }
          readPieces script (fuel + text.length) .lines
        return .mk stream .here (← within text inside)
    | x => unexpected x none
  | .redirection stream direction =>
    match ← readLexeme script fuel .bare with
    | .word w => return .mk stream direction w
    | x => unexpected x none
  | x => unexpected x none

/-- Reads the redirections that stand in a row. -/
def readRedirections (script : Reading Script) : Nat → Reading (List Redirection)
  | 0 => flaw .tooDeep
  | fuel + 1 => do
    match ← next script fuel .onLine with
    | .redirection stream direction =>
      let d ← readRedirection script fuel (.redirection stream direction)
      return d :: (← readRedirections script fuel)
    | .here stream indented =>
      let d ← readRedirection script fuel (.here stream indented)
      return d :: (← readRedirections script fuel)
    | x =>
      keep x
      return []

/-! ## Simple commands -/

/-- What the shell does itself and what no function can be called like: it ends the shell if it
fails. -/
def specialBuiltins : List String :=
  [".", ":", "break", "continue", "eval", "exec", "exit", "export", "local", "readonly", "return",
    "set", "shift", "times", "trap", "unset"]

/-- A word as the setting of a variable. -/
def settingOf? (w : Word) : Option (String × Word) :=
  match w with
  | .literal text false :: rest =>
    match Text.cut '=' text with
    | some (name, value) =>
      if isName (String.ofList name) then
        some (String.ofList name, if value = [] then rest else .literal value false :: rest)
      else none
    | none => none
  | _ => none

/-- The parts of a simple command, the last ones first. -/
structure Gathered where
  settings : List (String × Word)
  words : List Word
  redirections : List Redirection

/-- Reads the definition of a function behind the bracket that follows its name. -/
def readDefinition (script command : Reading Script) (fuel : Nat) (name : Word) :
    Reading Script := do
  demand script fuel .plain ")"
  match Word.bare? name with
  | some name =>
    if isName name && !specialBuiltins.contains name then
      keep (← next script fuel .anywhere)
      return .define name (← command)
    else flaw .badFunctionName
  | none => flaw .badFunctionName

/-- Reads the settings, words and redirections of a simple command, or a definition. -/
def readSimple (script command : Reading Script) (line : Nat) : Nat → Gathered → Reading Script
  | 0, _ => flaw .tooDeep
  | fuel + 1, g => do
    let redirected (mark : Lexeme) : Reading Script := do
      let d ← readRedirection script fuel mark
      readSimple script command line fuel { g with redirections := d :: g.redirections }
    let finished (x : Lexeme) : Reading Script := do
      keep x
      return .simple line g.settings.reverse g.words.reverse g.redirections.reverse
    match ← next script fuel (if g.words.isEmpty then .name else .plain) with
    | .word w =>
      match if g.words.isEmpty then settingOf? w else none with
      | some setting =>
        readSimple script command line fuel { g with settings := setting :: g.settings }
      | none => readSimple script command line fuel { g with words := w :: g.words }
    | .redirection stream direction => redirected (.redirection stream direction)
    | .here stream indented => redirected (.here stream indented)
    | .sign "(" =>
      match g with
      | ⟨[], [name], []⟩ => readDefinition script command fuel name
      | _ => finished (.sign "(")
    | x => finished x

/-! ## Compound commands -/

/-- Reads the words of a loop up to the end of their list. -/
def readItems (script : Reading Script) : Nat → Reading (List Word)
  | 0 => flaw .tooDeep
  | fuel + 1 => do
    match ← next script fuel .plain with
    | .word w => return w :: (← readItems script fuel)
    | .newline | .sign ";" => return []
    | x => unexpected x none

/-- Reads the rest of a loop over words. -/
def readEach (list : Bool → Reading Script) (line fuel : Nat) : Reading Script := do
  let script := list true
  match ← next script fuel .plain with
  | .word w =>
    match Word.bare? w with
    | some name =>
      if !isName name then flaw .badLoopName
      let words ← (do
        match ← next script fuel .anywhere with
        | .sign "in" => return some (← readItems script fuel)
        | .sign ";" => return none
        | x =>
          keep x
          return none)
      demand script fuel .anywhere "do"
      let body ← list false
      demand script fuel .plain "done"
      return .each line name words body
    | none => flaw .badLoopName
  | _ => flaw .badLoopName

/-- Reads the patterns of an arm from its first lexeme on up to the bracket after them. -/
def readPatterns (script : Reading Script) : Nat → Lexeme → Reading (List Word)
  | 0, _ => flaw .tooDeep
  | fuel + 1, x => do
    let w : Word := match x with
      | .word w => w
      | .sign text => [.literal text.toList false]
      | _ => []
    match ← next script fuel .plain with
    | .sign "|" => return w :: (← readPatterns script fuel (← next script fuel .plain))
    | .sign ")" => return [w]
    | x => unexpected x (some (.sign ")"))

/-- Reads the arms of a selection up to its end. -/
def readArms (list : Bool → Reading Script) : Nat → Reading (List (List Word × Script))
  | 0 => flaw .tooDeep
  | fuel + 1 => do
    let script := list true
    match ← next script fuel .anywhere with
    | .sign "esac" => return []
    | x =>
      let first ← (do
        match x with
        | .sign "(" => next script fuel .plain
        | x => return x)
      let patterns ← readPatterns script fuel first
      let body ← list true
      match ← next script fuel .anywhere with
      | .sign "esac" => return [(patterns, body)]
      | .sign ";;" => return (patterns, body) :: (← readArms list fuel)
      | x => unexpected x (some (.sign ";;"))

/-- Reads the rest of a selection. -/
def readSelection (list : Bool → Reading Script) (line fuel : Nat) : Reading Script := do
  match ← next (list true) fuel .plain with
  | .word w =>
    demand (list true) fuel .anywhere "in"
    return .selection line w (← readArms list fuel)
  | x => unexpected x (some (.word []))

/-- Reads the rest of a choice behind its test. -/
def readChoice (list : Bool → Reading Script) : Nat → Reading Script
  | 0 => flaw .tooDeep
  | fuel + 1 => do
    let test ← list false
    demand (list true) fuel .plain "then"
    let yes ← list false
    match ← next (list true) fuel .onLine with
    | .sign "elif" => return .choice test yes (← readChoice list fuel)
    | .sign "else" =>
      let no ← list false
      demand (list true) fuel .onLine "fi"
      return .choice test yes no
    | .sign "fi" => return .choice test yes (.sequence [])
    | x => unexpected x (some (.sign "fi"))

/-- Reads a command that begins with a reserved word or mark, if there is one. -/
def readCompound? (list : Bool → Reading Script) (line fuel : Nat) (first : Lexeme) :
    Reading (Option Script) := do
  let script := list true
  let loop (untilTrue : Bool) : Reading (Option Script) := do
    let test ← list false
    demand script fuel .onLine "do"
    let body ← list false
    demand script fuel .onLine "done"
    return some (.loop untilTrue test body)
  match first with
  | .sign "if" => return some (← readChoice list fuel)
  | .sign "while" => loop false
  | .sign "until" => loop true
  | .sign "for" => return some (← readEach list line fuel)
  | .sign "case" => return some (← readSelection list line fuel)
  | .sign "(" =>
    let body ← list false
    demand script fuel .onLine ")"
    return some (.apart line body [])
  | .sign "\x7b" =>
    let body ← list false
    demand script fuel .onLine "\x7d"
    return some body
  | _ => return none

/-- A compound command with redirections. -/
def withRedirections (line : Nat) (body : Script) (ds : List Redirection) : Script :=
  match body, ds with
  | body, [] => body
  | .apart line body _, ds => .apart line body ds
  | body, ds => .redirected line body ds

/-- Reads a command. -/
def commandOf (list : Bool → Reading Script) (command : Reading Script) (fuel : Nat)
    (look : Look) : Reading Script := do
  let script := list true
  let first ← next script fuel look
  let line := (← get).line
  match ← readCompound? list line fuel first with
  | some body => return withRedirections line body (← readRedirections script fuel)
  | none =>
    match first with
    | .word _ | .redirection _ _ | .here _ _ =>
      keep first
      readSimple script command line fuel ⟨[], [], []⟩
    | x => unexpected x none

/-! ## Lists -/

/-- Reads the commands of a pipe behind the first one. -/
def readPipe (script : Reading Script) (command : Look → Reading Script) :
    Nat → Reading (List Script)
  | 0 => flaw .tooDeep
  | fuel + 1 => do
    match ← next script fuel .plain with
    | .sign "|" => return (← command .anywhere) :: (← readPipe script command fuel)
    | x =>
      keep x
      return []

/-- Reads commands up to where a link to further ones may stand. -/
def readTerm (script : Reading Script) (command : Look → Reading Script) (fuel : Nat)
    (look : Look) : Reading Script := do
  let first ← next script fuel look
  let negated := match first with
    | .sign "!" => true
    | _ => false
  if !negated then keep first
  let c ← command .onLine
  let term ← (do
    match ← readPipe script command fuel with
    | [] => return c
    | cs => return .pipe (c :: cs))
  return if negated then .negation term else term

/-- Reads the links of a term to further terms, which run or not as it ends. -/
def readLinks (script : Reading Script) (command : Look → Reading Script) :
    Nat → Script → Reading Script
  | 0, _ => flaw .tooDeep
  | fuel + 1, first => do
    match ← next script fuel .plain with
    | .sign "&&" =>
      readLinks script command fuel (.both first (← readTerm script command fuel .anywhere))
    | .sign "||" =>
      readLinks script command fuel (.either first (← readTerm script command fuel .anywhere))
    | x =>
      keep x
      return first

/-- Whether a lexeme ends a list of commands. -/
def Lexeme.isCloser (x : Lexeme) : Bool :=
  match x with
  | .finish => true
  | .sign text => closers.contains text
  | _ => false

/-- The command that a list of commands is. -/
def sequenceOf (cs : List Script) : Script :=
  match cs with
  | [c] => c
  | cs => .sequence cs

/-- Reads a command with its links, and the mark behind it: whether further commands may follow. -/
def readEntry (script : Reading Script) (command : Look → Reading Script) (fuel : Nat) :
    Reading (Script × Lexeme) := do
  let line := (← get).line
  let c ← readLinks script command fuel (← readTerm script command fuel .onLine)
  match ← next script fuel .plain with
  | .sign "&" => return (.aside line c, .sign "&")
  | x => return (c, x)

mutual

/-- Reads a command; `fuel` bounds the depth of what is nested. -/
def readCommand : Nat → Look → Reading Script
  | 0, _ => flaw .tooDeep
  | fuel + 1, look => commandOf (readList fuel) (readCommand fuel .onLine) fuel look

/-- Reads commands up to a lexeme that ends them, which stays. Where there may be none,
`mayBeEmpty` says so. -/
def readList : Nat → Bool → Reading Script
  | 0, _ => flaw .tooDeep
  | fuel + 1, mayBeEmpty => return sequenceOf (← readEntries fuel mayBeEmpty)

/-- Reads the commands of a list. -/
def readEntries : Nat → Bool → Reading (List Script)
  | 0, _ => flaw .tooDeep
  | fuel + 1, mayBeEmpty => do
    let script := readList fuel true
    let x ← next script fuel .anywhere
    keep x
    if x matches .finish || mayBeEmpty && x.isCloser then return []
    else
      let (c, mark) ← readEntry script (readCommand fuel) fuel
      match mark with
      | .finish =>
        keep .finish
        return [c]
      | .newline | .sign ";" | .sign "&" => return c :: (← readEntries fuel true)
      | x =>
        keep x
        return [c]

end

/-- Reads the entries of a line up to its end, which goes too. -/
def readLineEntries (depth : Nat) : Nat → Reading (List Script)
  | 0 => flaw .tooDeep
  | fuel + 1 => do
    let script := readList depth true
    match ← next script fuel .onLine with
    | .newline => return []
    | .finish =>
      keep .finish
      return []
    | x =>
      keep x
      let (c, mark) ← readEntry script (readCommand depth) fuel
      match mark with
      | .finish | .newline =>
        keep mark
        return c :: (← readLineEntries depth fuel)
      | .sign ";" | .sign "&" => return c :: (← readLineEntries depth fuel)
      | x => unexpected x none

/-- Reads a line of commands, which may go on over further lines; nothing where the text has ended.
-/
def readLine? (fuel : Nat) : Reading (Option Script) := do
  modify fun c => { c with kept := none }
  match ← next (readList fuel true) fuel .onLine with
  | .finish => return none
  | .newline => return some (.sequence [])
  | x =>
    keep x
    return some (sequenceOf (← readLineEntries fuel fuel))

/-- The next line of commands at a cursor, and the cursor behind it. -/
def Cursor.line? (c : Cursor) : Except (Nat × Flaw) (Option Script × Cursor) :=
  (readLine? (8 * c.rest.length + 64)).run c

/-- A text as a word in which quotes stand for themselves. -/
def looseWord (text : List Char) : Word :=
  let fuel := 8 * text.length + 64
  match (readPieces (readList fuel true) fuel .lines).run (.ofText text []) with
  | .ok (w, _) => w
  | .error _ => [.literal text true]

end CoverageRun.Shell
