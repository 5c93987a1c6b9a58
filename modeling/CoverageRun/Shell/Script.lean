/-
Scripts of the command shell: words, with what is put in place of their parts when they are used,
and the commands made of them.
-/
namespace CoverageRun.Shell

/-- What a redirection does to a stream. -/
inductive Direction where
  | read
  /-- The text itself is read, not a file. -/
  | here
  | write
  /-- The file is written anew, whatever protects files that are there. -/
  | replace
  | append
  /-- The file is read and written, and not emptied. -/
  | both
  /-- The stream leads to where another one leads. -/
  | copy
  deriving DecidableEq, Repr

mutual

/-- A part of a word. What stands in quotes is neither split nor matched with file names. -/
inductive Piece where
  | literal (text : List Char) (quoted : Bool)
  | parameter (name : String) (change : Change) (quoted : Bool)
  | arithmetic (body : List Piece) (quoted : Bool)
  | output (body : Script) (quoted : Bool)
  /-- Braces behind a dollar sign that hold no parameter: they fail when the word is used. -/
  | badSubstitution

/-- What is made of the value of a parameter. With `filled` the value counts only if it is not
empty. -/
inductive Change where
  | same
  | length
  | orElse (filled assign : Bool) (word : List Piece)
  | andThen (filled : Bool) (word : List Piece)
  /-- Without a value the session ends with a message. -/
  | orFail (filled : Bool) (word : List Piece)
  | withoutHead (longest : Bool) (pattern : List Piece)
  | withoutTail (longest : Bool) (pattern : List Piece)

/-- A redirection of the stream with a number. -/
inductive Redirection where
  | mk (stream : Nat) (direction : Direction) (target : List Piece)

/-- A command, or several. Those of which messages speak know the line they begin on. -/
inductive Script where
  | simple (line : Nat) (settings : List (String × List Piece)) (words : List (List Piece))
      (redirections : List Redirection)
  | sequence (parts : List Script)
  | both (first second : Script)
  | either (first second : Script)
  | negation (part : Script)
  | pipe (parts : List Script)
  | choice (test yes no : Script)
  | loop (untilTrue : Bool) (test body : Script)
  | each (line : Nat) (name : String) (words : Option (List (List Piece))) (body : Script)
  | selection (line : Nat) (word : List Piece) (arms : List (List (List Piece) × Script))
  | apart (line : Nat) (body : Script) (redirections : List Redirection)
  /-- A command whose end is not waited for. -/
  | aside (line : Nat) (body : Script)
  | redirected (line : Nat) (body : Script) (redirections : List Redirection)
  | define (name : String) (body : Script)

end

instance : Inhabited Script := ⟨.sequence []⟩

/-- A word: its parts. -/
abbrev Word := List Piece

/-- The text of a word that holds nothing to be expanded, and whether a part of it is quoted. -/
def plainOf : Word → List Char × Bool
  | [] => ([], false)
  | .literal text quoted :: rest =>
    let (more, isQuoted) := plainOf rest
    (text ++ more, quoted || isQuoted)
  | _ :: rest => plainOf rest

/-- The text of a word that stands there as it is, without quotes and expansions. -/
def Word.bare? : Word → Option String
  | [.literal text false] => some (String.ofList text)
  | _ => none

end CoverageRun.Shell
