/-
What the shell does itself with its variables, arguments and options.
-/
import CoverageRun.Shell.Redirecting

namespace CoverageRun.Shell

open Text Running

/-- What the shell does itself, given its arguments. -/
abbrev Builtin := List String → Running Unit

/-! ## Options of commands -/

/-- The options at the head of arguments, letter by letter and with their values, and the other
arguments. Letters among `valued` take a value; `fuel` is more than the characters of all. -/
def takeOptions (plain valued : String) : Nat → List String →
    Running (List (Char × String) × List String)
  | 0, args => return ([], args)
  | fuel + 1, args => do
    match args with
    | [] => return ([], [])
    | "--" :: rest => return ([], rest)
    | a :: rest =>
      match a.toList with
      | '-' :: c :: more =>
        if plain.toList.contains c then
          let others := if more = [] then rest else String.ofList ('-' :: more) :: rest
          let (found, args) ← takeOptions plain valued fuel others
          return ((c, "") :: found, args)
        else if valued.toList.contains c then
          match more, rest with
          | [], [] => fail s!"No arg for -{c} option"
          | [], value :: rest =>
            let (found, args) ← takeOptions plain valued fuel rest
            return ((c, value) :: found, args)
          | more, rest =>
            let (found, args) ← takeOptions plain valued fuel rest
            return ((c, String.ofList more) :: found, args)
        else fail s!"Illegal option -{c}"
      | _ => return ([], args)

/-- The options at the head of arguments, and the other arguments. -/
def optionsOf (plain valued : String) (args : List String) :
    Running (List (Char × String) × List String) :=
  takeOptions plain valued ((args.map String.length).foldl (· + ·) (args.length + 1)) args

/-- The count that an argument stands for. -/
def countOf (text : String) : Running Nat := do
  match countValue? text with
  | some n => return n
  | none => fail s!"Illegal number: {text}"

/-! ## Listings -/

/-- A text in single quotes; those in it stand in double quotes. -/
def singleQuoted (text : String) : String :=
  let parts := split '\'' text.toList
  let quote (part : List Char) : String := "'" ++ String.ofList part ++ "'"
  joinText "\"'\"" (parts.map quote)

/-- The setting of a variable as it is listed. -/
def settingLine (name : String) (setting : Setting) : String :=
  match setting.value with
  | some value => s!"{name}={singleQuoted value}"
  | none => name

/-- Prints the variables that are chosen, in order. -/
def listVariables (lead : String) (isChosen : Setting → Bool) : Running Unit := do
  let s ← get
  let lines := (s.bindings.entries.filter fun v => isChosen v.2).map fun v =>
    lead ++ settingLine v.1 v.2 ++ "\n"
  set (s.say (String.join lines))

/-! ## Variables -/

/-- Splits a setting into its name and its value. -/
def settingOf (a : String) : String × Option String :=
  match Text.cut '=' a.toList with
  | some (name, value) => (String.ofList name, some (String.ofList value))
  | none => (a, none)

/-- Changes variables, after those with a value are set, or lists those that are changed so. -/
def declare (command : String) (isChosen : Setting → Bool)
    (change : Session → String → Session) : Builtin := fun args => do
  let (options, args) ← optionsOf "p" "" args
  if args.isEmpty || !options.isEmpty then listVariables (command ++ " ") isChosen
  else
    args.forM fun a => do
      let (name, value) := settingOf a
      match value with
      | some value => assign name value
      | none => if !isName name then fail s!"{name}: bad variable name"
      modify fun s => change s name
  finish 0

/-- Makes variables a function's own, which must be running. -/
def declareOwn : Builtin := fun args => do
  if (← get).shadowed.isNone then fail "not in a function"
  args.forM fun a => do
    let s ← get
    let (name, value) := settingOf a
    if !isName name then fail s!"{name}: bad variable name"
    let old := s.shadowed.getD []
    let kept := if (old.lookup name).isSome then old else (name, s.bindings.get? name) :: old
    set { s with shadowed := some kept }
    match value with
    | some value => assign name value
    | none => pure ()
  finish 0

/-- Removes variables or functions. -/
def unset : Builtin := fun args => do
  let (options, args) ← optionsOf "vf" "" args
  args.forM fun name => do
    if (options.getLast?.map (·.1)) = some 'f' then
      modify fun s => { s with functions := s.functions.filter fun n _ => n != name }
    else forget name
  finish 0

/-! ## Arguments -/

/-- Drops arguments. -/
def shift : Builtin := fun args => do
  let n ← (args.head?.map countOf).getD (pure 1)
  let s ← get
  if s.arguments.length < n then fail "can't shift that many"
  set { s.atOption 1 with arguments := s.arguments.drop n, status := 0 }

/-- The options of the shell, with their letters; some have none. -/
def shellOptions : List (String × Option Char) :=
  [("errexit", some 'e'), ("noglob", some 'f'), ("ignoreeof", some 'I'),
    ("interactive", some 'i'), ("monitor", some 'm'), ("noexec", some 'n'), ("stdin", some 's'),
    ("xtrace", some 'x'), ("verbose", some 'v'), ("vi", some 'V'), ("emacs", some 'E'),
    ("noclobber", some 'C'), ("allexport", some 'a'), ("notify", some 'b'), ("nounset", some 'u'),
    ("privileged", some 'p'), ("nolog", none), ("debug", none)]

/-- The letters of the options, in the order in which those that are set are listed. -/
def optionLetters : List Char := (shellOptions.filterMap (·.2)).reverse

/-- Sets an option, or not. -/
def setOption (isSet : Bool) (c : Char) : Running Unit := do
  if !optionLetters.contains c then fail s!"Illegal option -{c}"
  modify fun s =>
    let others := s.options.filter (· != c)
    let options := if isSet then c :: others else others
    { s with options := optionLetters.filter options.contains }

/-- Sets an option by its name, or not. -/
def setNamedOption (isSet : Bool) (name : String) : Running Unit := do
  match shellOptions.lookup name with
  | some (some c) => setOption isSet c
  | some none => return ()
  | none => fail s!"Illegal option -o {name}"

/-- Lists the options and whether they are set. -/
def listOptions (asSettings : Bool) : Running Unit := do
  let s ← get
  let isOn (o : String × Option Char) : Bool := (o.2.map s.has).getD false
  let line (o : String × Option Char) : String :=
    let gap := String.ofList (List.replicate (16 - o.1.length) ' ')
    let state := if isOn o then "on" else "off"
    let sign := if isOn o then "-" else "+"
    if asSettings then s!"set {sign}o {o.1}\n" else s!"{o.1}{gap}{state}\n"
  let head := if asSettings then "" else "Current option settings\n"
  set (s.say (head ++ String.join (shellOptions.map line)))

/-- Sets options that letters name, and takes the name of one from the arguments where a letter asks
for that; gives the arguments left. -/
def setLetters (isSet : Bool) : List Char → List String → Running (List String)
  | [], args => return args
  | 'o' :: cs, args => do
    match args with
    | [] => listOptions (!isSet)
    | name :: _ => setNamedOption isSet name
    setLetters isSet cs (args.drop 1)
  | c :: cs, args => do
    setOption isSet c
    setLetters isSet cs args

/-- Sets options and arguments; `fuel` is more than the number of arguments. -/
def setAll : Nat → List String → Running Unit
  | 0, _ | _, [] => return ()
  | fuel + 1, a :: rest => do
    match a.toList with
    | ['-'] => do
      setOption false 'x'
      setOption false 'v'
      if !rest.isEmpty then modify fun s => { s with arguments := rest }
    | ['-', '-'] => modify fun s => { s.atOption 1 with arguments := rest }
    | '-' :: cs => setAll fuel (← setLetters true cs rest)
    | '+' :: cs => setAll fuel (← setLetters false cs rest)
    | _ => modify fun s => { s.atOption 1 with arguments := a :: rest }

/-- Sets options and arguments, or lists the variables. -/
def setCommand : Builtin := fun args => do
  if args.isEmpty then listVariables "" fun v => v.value.isSome
  else setAll (args.length + 1) args
  finish 0

/-! ## Reading options -/

/-- What comes of looking at the next option of arguments. -/
structure NextOption where
  /-- The letter, or what stands for it. -/
  letter : Char
  value : Option String
  message : Option String
  /-- The next argument, and how far it has been read. -/
  index : Nat
  place : Nat
  isDone : Bool

/-- The next option of arguments, from the argument with an index on, of which some characters are
read already. -/
def nextOption (known : String) (args : List String) (index place : Nat) : NextOption :=
  let isQuiet := known.startsWith ":"
  let atEnd (index : Nat) : NextOption := ⟨'?', none, none, index, 0, true⟩
  let current := ((args[index - 2]?).getD "").toList
  let inside := if place = 0 ∨ index < 2 then [] else current.drop place
  let start : Option (List Char × Nat × Nat) :=
    if inside ≠ [] then some (inside, index, place)
    else
      match (args[index - 1]?).map String.toList with
      | some ('-' :: c :: cs) => if c = '-' ∧ cs = [] then none else some (c :: cs, index + 1, 1)
      | _ => none
  match start with
  | none =>
    let isMark := (args[index - 1]?) = some "--" ∧ inside = []
    atEnd (if isMark then index + 1 else index)
  | some ([], _, _) => atEnd index
  | some (c :: cs, index, place) =>
    let go (letter : Char) (value message : Option String) : NextOption :=
      ⟨letter, value, message, index, if cs = [] then 0 else place + 1, false⟩
    match (known.toList.drop (if isQuiet then 1 else 0)).span (· != c) with
    | (_, []) =>
      if isQuiet then go '?' (some c.toString) none
      else go '?' none (some s!"Illegal option -{c}")
    | (_, _ :: ':' :: _) =>
      if cs ≠ [] then ⟨c, some (String.ofList cs), none, index, 0, false⟩
      else
        match args[index - 1]? with
        | some value => ⟨c, some value, none, index + 1, 0, false⟩
        | none =>
          if isQuiet then ⟨':', some c.toString, none, index, 0, false⟩
          else ⟨'?', none, some s!"No arg for -{c} option", index, 0, false⟩
    | _ => go c (some "") none

/-- Reads the next option of the arguments into variables. -/
def getopts : Builtin := fun args => do
  match args with
  | known :: name :: given =>
    let s ← get
    let found :=
      nextOption known (if given.isEmpty then s.arguments else given) s.optionIndex s.optionPlace
    match found.message with
    | some message => modify fun s => s.complain message
    | none => pure ()
    if !found.isDone then
      match found.value with
      | some value => assign "OPTARG" value
      | none => modify fun s => s.forget "OPTARG"
    assign "OPTIND" (toString found.index)
    modify fun s => { s with optionIndex := found.index, optionPlace := found.place }
    assign name found.letter.toString
    finish (if found.isDone then 1 else 0)
  | _ => fail "Usage: getopts optstring var [arg...]"

/-! ## Reading lines -/

/-- The characters of a line, where those behind a backslash stand for themselves. -/
def unescapedLine : List Char → List Sign
  | '\\' :: '\n' :: r => unescapedLine r
  | '\\' :: c :: r => (c, true) :: unescapedLine r
  | ['\\'] => []
  | c :: r => (c, false) :: unescapedLine r
  | [] => []

/-- The octets of a line at the head of some, whether a line feed ends it, and the number of octets
with it. A backslash before a line feed keeps the line from ending where `joins` says so. -/
def takeLine (joins : Bool) : List UInt8 → List UInt8 × Bool × Nat
  | [] => ([], false, 0)
  | [b] => if b = 10 then ([], true, 1) else ([b], false, 1)
  | b :: c :: rest =>
    if b = 10 then ([], true, 1)
    else if joins ∧ b = 92 then
      let (line, isEnded, n) := takeLine joins rest
      (b :: c :: line, isEnded, n + 2)
    else
      let (line, isEnded, n) := takeLine joins (c :: rest)
      (b :: line, isEnded, n + 1)

/-- Reads a line into variables. -/
def readLine : Builtin := fun args => do
  let (options, names) ← optionsOf "r" "p" args
  if names.isEmpty then fail "arg count"
  let isRaw := options.any fun o => o.1 = 'r'
  let s ← get
  let (bytes, isEnded, count) := takeLine (!isRaw) s.input
  set (s.consume count)
  let text := (lossy (bytes.filter (· ≠ 0))).toList
  let signs := if isRaw then text.map (·, false) else unescapedLine text
  (names.zip (lineWords s.breaks names.length signs)).forM fun v => assign v.1 v.2
  finish (if isEnded then 0 else 1)

end CoverageRun.Shell
