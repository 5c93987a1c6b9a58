/-
Reading words: plain text, quotes, and what a dollar sign or a backquote begins. The commands inside
a word are read by a reader that is given.
-/
import CoverageRun.Shell.Cursor

namespace CoverageRun.Shell

open Reading

/-! ## Characters -/

def isSpace (c : Char) : Bool := c == ' ' || c == '\t'

/-- A character that ends a word. -/
def endsWord (c : Char) : Bool :=
  isSpace c || ['\n', ';', '&', '|', '<', '>', '(', ')'].contains c

def isNameStart (c : Char) : Bool := ('a' ≤ c && c ≤ 'z') || ('A' ≤ c && c ≤ 'Z') || c == '_'

def isDigit (c : Char) : Bool := '0' ≤ c && c ≤ '9'

def isNameChar (c : Char) : Bool := isNameStart c || isDigit c

/-- Whether a text is a name that a variable can have. -/
def isName (text : String) : Bool :=
  (text.toList.head?.map isNameStart).getD false && text.toList.all isNameChar

/-- The names of parameters that are one character other than a letter or digit. -/
def specialNames : List Char := ['@', '*', '#', '?', '$', '!', '-']

/-- The mark before and after a command whose output is wanted. -/
def outputMark : Char := '\x60'

def opening : Char := '\x7b'

def closing : Char := '\x7d'

/-! ## Surroundings -/

/-- What a part of a word stands in. -/
inductive Region where
  | bare
  /-- The word that ends the lines of a text, where nothing is expanded. -/
  | delimiter
  /-- Braces outside quotes. -/
  | braces
  | quotes
  /-- Braces inside quotes. -/
  | quotedBraces
  /-- Quotes inside such braces. -/
  | innerQuotes
  /-- The lines of a text. -/
  | lines
  /-- Braces in such a text. -/
  | linesBraces
  /-- A sum, inside so many brackets of its own. -/
  | sum (level : Nat)
  deriving DecidableEq, Repr

namespace Region

/-- Whether quotes begin and end as they do outside of them. -/
def isOpen (r : Region) : Bool := r == .bare || r == .delimiter || r == .braces

/-- Whether a character stands for itself. -/
def isPlain (r : Region) (c : Char) : Bool :=
  c != '\\' && c != '$' && c != outputMark && c != '\n' && c != '"' && c != closing &&
    c != '(' && c != ')' && !(r.isOpen && c == '\'') &&
    !((r == .bare || r == .delimiter) && endsWord c)

/-- The region of braces that stand in this one; those with a pattern let quotes begin anew. -/
def braced (r : Region) (withPattern : Bool) : Region :=
  match r with
  | .bare | .delimiter | .braces => .braces
  | .lines | .linesBraces => if withPattern then .braces else .linesBraces
  | .quotes | .quotedBraces | .innerQuotes | .sum _ =>
    if withPattern then .braces else .quotedBraces

/-- Whether a character after a backslash stands for itself alone. -/
def unescapes (r : Region) (c : Char) : Bool :=
  r.isOpen || ['\\', outputMark, '$'].contains c ||
    (c == '"' && r != .lines) ||
    (c == closing && [.quotedBraces, .linesBraces, .innerQuotes].contains r)

/-- What is wrong where the text ends inside the region. -/
def flaw? : Region → Option Flaw
  | .bare | .delimiter | .lines => none
  | .braces | .linesBraces => some .openBrace
  | .quotes | .quotedBraces | .innerQuotes => some .openQuote
  | .sum _ => some .openSum

/-- Whether a character ends the region. -/
def isEnd (r : Region) (c : Char) : Bool :=
  match r with
  | .bare | .delimiter => endsWord c
  | .braces | .quotedBraces | .linesBraces => c == closing
  | .quotes | .innerQuotes => c == '"'
  | .lines | .sum _ => false

end Region

/-! ## Braces -/

/-- What stands between the head of braces and the word in them. -/
inductive BraceHead where
  /-- A parameter alone; its braces are closed. -/
  | whole (name : String)
  | length (name : String)
  /-- A change of a parameter by a word, which may be a pattern. -/
  | change (name : String) (change : Word → Change) (withPattern : Bool)
  | bad

/-- The digits or letters of a name at the head of a text, lines joined. -/
def readName (holds : Char → Bool) : Nat → Reading (List Char)
  | 0 => return []
  | fuel + 1 => do
    match ← peek with
    | some c =>
      if holds c then
        skip
        return c :: (← readName holds fuel)
      else return []
    | none => return []

/-- Reads the sign of a change behind the name of a parameter. -/
def readChange (name : String) : Reading BraceHead := do
  let filled ← skips ':'
  match ← takeRaw with
  | some '\x7d' =>
    return if filled then .change name (fun _ => .same) false else .whole name
  | some '-' => return .change name (.orElse filled false) false
  | some '+' => return .change name (.andThen filled) false
  | some '?' => return .change name (.orFail filled) false
  | some '=' => return .change name (.orElse filled true) false
  | some '%' =>
    if filled then return .bad
    else return .change name (.withoutTail (← skips '%')) true
  | some '#' =>
    if filled then return .bad
    else return .change name (.withoutHead (← skips '#')) true
  | _ => return .bad

/-- Reads the name of a parameter: that of a variable, a number or a sign. Outside braces a number
has one digit. -/
def readParameter? (fuel : Nat) (inBraces : Bool) : Reading (Option String) := do
  match ← peek with
  | none => return none
  | some c =>
    if isNameStart c then return some (String.ofList (← readName isNameChar fuel))
    else if isDigit c then
      return some (String.ofList (← readName isDigit (if inBraces then fuel else 1)))
    else if specialNames.contains c then
      skip
      return some c.toString
    else return none

/-- Reads the head of braces behind a dollar sign. -/
def readBraceHead (fuel : Nat) : Reading BraceHead := do
  if (← peek) = some '#' then
    skip
    let c ← get
    match ← readParameter? fuel true with
    | some name =>
      if (← peek) = some closing then return .length name
      else if (name.toList.head?.map isNameChar).getD false then return .bad
      else
        set c
        readChange "#"
    | none =>
      if (← peek) = some closing then readChange "#"
      else
        skip
        if (← peek) = some closing then return .bad
        else
          set c
          readChange "#"
  else
    match ← readParameter? fuel true with
    | some name => readChange name
    | none =>
      if (← peek) != some closing then skip
      return .bad

/-! ## Substitutions -/

/-- Reads the text between backquotes, from which backslashes before some characters go. -/
def readBackquoted (isQuoted : Bool) : Nat → Reading (List Char)
  | 0 => flaw .tooDeep
  | fuel + 1 => do
    match ← takeRaw with
    | none => flaw .openSubstitution
    | some c =>
      if c = outputMark then return []
      else if c = '\\' then
        match ← takeRaw with
        | none => flaw .openSubstitution
        | some '\n' => readBackquoted isQuoted fuel
        | some e =>
          let rest ← readBackquoted isQuoted fuel
          let isEscaped := ['\\', outputMark, '$'].contains e || (isQuoted && e == '"')
          return if isEscaped then e :: rest else '\\' :: e :: rest
      else return c :: (← readBackquoted isQuoted fuel)

/-! ## Words -/

/-- Reads commands in backquotes; what follows them there does not count. -/
def readOldOutput (script : Reading Script) (isQuoted : Bool) (fuel : Nat) : Reading Script := do
  let text ← readBackquoted isQuoted fuel
  within text script

/-- Reads commands up to the bracket after them. -/
def readOutput (script : Reading Script) : Reading Script := do
  let body ← script
  let c ← get
  set { c with kept := none }
  match c.kept with
  | some (.sign ")") => return body
  | x => unexpected (x.getD .finish) (some (.sign ")"))

/-- Reads the text in single quotes up to the second of them. -/
def readSingleQuoted : Nat → Reading (List Char)
  | 0 => flaw .tooDeep
  | fuel + 1 => do
    let text ← takeWhile fun c => c != '\'' && c != '\n'
    match ← takeRaw with
    | none => flaw .openQuote
    | some '\n' => return text ++ '\n' :: (← readSingleQuoted fuel)
    | some _ => return text

/-- The parts that stand in quotes, with marks of these. The arguments alone have none, so that they
may come to nothing. -/
def quotedWord (inside : Word) : Word :=
  match inside with
  | [.parameter "@" .same _] => inside
  | inside => .literal [] true :: inside ++ [.literal [] true]

/-- Reads the parts of a word up to the end of their region, which stays. The commands in it are
read by `script`, which keeps the lexeme after them. -/
def readPieces (script : Reading Script) : Nat → Region → Reading Word
  | 0, _ => flaw .tooDeep
  | fuel + 1, region => do
    let quoted := !region.isOpen
    let goOn (piece : Piece) : Reading Word := return piece :: (← readPieces script fuel region)
    let plain (text : List Char) : Reading Word := goOn (.literal text quoted)
    match ← peek with
    | none =>
      match region.flaw? with
      | some f => flaw f
      | none => return []
    | some c =>
      if region.isEnd c then return []
      else if region.isPlain c then plain (← takeWhile region.isPlain)
      else
        skip
        match c with
        | '\\' =>
          match ← takeRaw with
          | none => goOn (.literal ['\\'] true)
          | some e => goOn (.literal (if region.unescapes e then [e] else ['\\', e]) true)
        | '\'' => goOn (.literal (← readSingleQuoted (fuel + 1)) true)
        | '"' =>
          match region with
          | .lines | .sum _ => plain ['"']
          | _ =>
            let inside ←
              readPieces script fuel (if region.isOpen then .quotes else .innerQuotes)
            skip
            return quotedWord inside ++ (← readPieces script fuel region)
        | '$' =>
          if region == .delimiter then plain ['$']
          else
            match ← peek with
            | some '(' =>
              skip
              if ← skips '(' then
                let body ← readPieces script fuel (.sum 0)
                skip
                skip
                goOn (.arithmetic body quoted)
              else goOn (.output (← readOutput script) quoted)
            | some '\x7b' =>
              skip
              let readWord (withPattern : Bool) : Reading Word := do
                let word ← readPieces script fuel (region.braced withPattern)
                skip
                return word
              match ← readBraceHead fuel with
              | .whole name => goOn (.parameter name .same quoted)
              | .length name =>
                skip
                goOn (.parameter name .length quoted)
              | .change name change withPattern =>
                goOn (.parameter name (change (← readWord withPattern)) quoted)
              | .bad =>
                let _ ← readWord false
                goOn .badSubstitution
            | _ =>
              match ← readParameter? fuel false with
              | some name => goOn (.parameter name .same quoted)
              | none => plain ['$']
        | '(' =>
          match region with
          | .sum level =>
            return .literal ['('] true :: (← readPieces script fuel (.sum (level + 1)))
          | _ => plain ['(']
        | ')' =>
          match region with
          | .sum 0 =>
            if (← peek) = some ')' then
              modify fun c => { c with rest := ')' :: c.rest }
              return []
            else plain [')']
          | .sum (level + 1) =>
            return .literal [')'] true :: (← readPieces script fuel (.sum level))
          | _ => plain [')']
        | c =>
          if c = outputMark then
            if region == .delimiter then plain [outputMark]
            else goOn (.output (← readOldOutput script quoted (fuel + 1)) quoted)
          else plain [c]

end CoverageRun.Shell
