/-
Arguments of a program: options with and without values, in their long and their short spelling, and
plain words. What an option is given is checked as it is read.
-/
import CoverageRun.Numeral.Whole
import CoverageRun.Text.Split

namespace CoverageRun.CommandLine

/-! ## Options -/

/-- What an option takes. -/
inductive Kind where
  /-- Nothing: the option itself is the message. -/
  | switch
  | text
  /-- The path of a file or directory, which is not empty. -/
  | path
  /-- A whole number that fits into 64 bits. -/
  | number
  | oneOf (words : List String)
  deriving DecidableEq, Repr

/-- Whether an option takes a value. -/
def Kind.takesValue (k : Kind) : Bool := k != .switch

/-- Whether a value is of a kind. -/
def Kind.accepts (k : Kind) (value : String) : Bool :=
  match k with
  | .switch | .text => true
  | .path => value != ""
  | .number => (Numeral.read64 value.toList).isSome
  | .oneOf words => words.contains value

/-- An option: its names, what it takes, and whether it may be given more than once. -/
structure Flag where
  name : String
  letter : Option Char
  kind : Kind
  repeats : Bool
  deriving DecidableEq, Repr

/-- Why arguments are not acted on. -/
inductive Refusal where
  /-- They are not as they should be. -/
  | misused
  /-- They ask how the program is used. -/
  | help
  /-- They ask for the version of the program. -/
  | version
  deriving DecidableEq, Repr

/-! ## Reading -/

/-- What was read: the options with their values and the plain words, both in order. -/
structure Given where
  options : List (String × String)
  words : List String
  deriving DecidableEq, Repr, Inhabited

namespace Given

def nothing : Given := ⟨[], []⟩

/-- The values of an option. -/
def values (g : Given) (name : String) : List String :=
  g.options.filterMap fun o => if o.1 = name then some o.2 else none

/-- The only value of an option. -/
def value? (g : Given) (name : String) : Option String := (g.values name).head?

/-- What was read, with an option besides. -/
def record (g : Given) (f : Flag) (value : String) : Except Refusal Given :=
  if f.name = "help" then .error .help
  else if f.name = "version" then .error .version
  else if f.kind.accepts value = false then .error .misused
  else if f.repeats = false ∧ (g.value? f.name).isSome then .error .misused
  else .ok { g with options := g.options ++ [(f.name, value)] }

end Given

/-- Whether a word is spelled as an option. -/
def isOption (word : String) : Bool := word.startsWith "-" && word != "-"

/-- Reads letters of options in one word: what is given by them, and an option that still wants its
value. A letter that takes a value takes the rest of the word. -/
def readLetters (flags : List Flag) (g : Given) : List Char → Except Refusal (Given × Option Flag)
  | [] => .ok (g, none)
  | c :: rest =>
    match flags.find? fun f => f.letter == some c with
    | none => .error .misused
    | some f =>
      if f.kind.takesValue then
        match rest with
        | [] => .ok (g, some f)
        | '=' :: value => do return (← g.record f (String.ofList value), none)
        | value => do return (← g.record f (String.ofList value), none)
      else
        match g.record f "" with
        | .ok g => readLetters flags g rest
        | .error r => .error r

/-- Reads the long name of an option: what is given by it, and the option if it still wants its
value. -/
def readName (flags : List Flag) (g : Given) (word : String) :
    Except Refusal (Given × Option Flag) :=
  let (name, value) : List Char × Option (List Char) :=
    match Text.cut '=' word.toList with
    | some (name, value) => (name, some value)
    | none => (word.toList, none)
  match flags.find? fun f => f.name.toList == name with
  | none => .error .misused
  | some f =>
    match f.kind.takesValue, value with
    | true, some value => do return (← g.record f (String.ofList value), none)
    | true, none => .ok (g, some f)
    | false, some _ => .error .misused
    | false, none => do return (← g.record f "", none)

/-- Reads a word that is spelled as an option. -/
def readOption (flags : List Flag) (g : Given) (word : String) :
    Except Refusal (Given × Option Flag) :=
  match Text.afterText? "--" word with
  | some name => readName flags g name
  | none => readLetters flags g (word.toList.drop 1)

/-- Reads arguments up to the first word that names a command, and returns it with what follows.
After two hyphens all is plain words. -/
def readUpTo (flags : List Flag) (isCommand : String → Bool) (g : Given) :
    List String → Except Refusal (Given × List String)
  | [] => .ok (g, [])
  | word :: rest =>
    if word = "--" then .ok ({ g with words := g.words ++ rest }, [])
    else if isOption word then
      match readOption flags g word with
      | .error r => .error r
      | .ok (g, none) => readUpTo flags isCommand g rest
      | .ok (g, some f) =>
        match rest with
        | [] => .error .misused
        | value :: rest =>
          if isOption value then .error .misused
          else
            match g.record f value with
            | .error r => .error r
            | .ok g => readUpTo flags isCommand g rest
    else if isCommand word then .ok (g, word :: rest)
    else readUpTo flags isCommand { g with words := g.words ++ [word] } rest

end CoverageRun.CommandLine
