/-
Programs at work: the shell with a script, those that run other programs, and scripts with an
interpreter. What a script does is left to what runs it.
-/
import CoverageRun.Shell.Builtins

namespace CoverageRun.Shell

open Files Text Store Running

/-- What runs a script, the status of which is looked at or not. -/
abbrev Run := Regard → Script → Running Unit

/-! ## Lines -/

/-- Runs the lines of a text from a cursor on, each as soon as it is read. A text without commands
succeeds; `fuel` is more than the number of lines. -/
def runLines (run : Run) (c : Regard) : Nat → Bool → Cursor → Running Unit
  | 0, _, _ => throw .overdue
  | fuel + 1, hasRun, cursor => do
    match { cursor with aliases := (← get).aliases.entries }.line? with
    | .error (line, f) =>
      modify fun s => { s with line }
      let message := f.message
      fail s!"Syntax error: {message}"
    | .ok (none, _) => if !hasRun then finish 0
    | .ok (some body, rest) =>
      let isEmpty := body matches .sequence []
      run c body
      runLines run c fuel (hasRun || !isEmpty) rest

/-- Runs a text. -/
def runText (run : Run) (c : Regard) (text : String) : Running Unit :=
  runLines run c (text.length + 2) false (.ofText text.toList [])

/-- Runs what is set for a signal, or for the end of a session. -/
def runTrap (run : Run) (text : String) : Running Unit := runText run .usual text

/-- What words need to be expanded. -/
def runnerOf (run : Run) : Runner := ⟨run .usual, runTrap run⟩

/-! ## The shell -/

/-- The variables that the shell begins with, of those a program sees. -/
def shellBindings (s : Session) : OrderedMap String Setting :=
  let own (name value : String) : String × Setting := (name, ⟨some value, false, false⟩)
  let usual := [own "PATH" shellPath, own "PS1" "# ", own "PS2" "> ", own "PS4" "+ "]
  let seen := (s.bindings.filter fun name _ => isName name).entries
  .ofList (usual ++ seen ++
    [own "IFS" " \t\n", own "OPTIND" "1", own "PPID" (toString (s.id - 1)),
      ("PWD", ⟨some s.place, true, false⟩)])

/-- Runs the shell with a script of its own to its end. -/
def runSession (run : Run) (title : String) (args : List String) (text : String) :
    Running Unit := do
  modify fun s => { s with title, arguments := args, bindings := shellBindings s, line := 0 }
  toEnd (runTrap run) (runText run .usual text)
  modify fun s => s.ended s.status

/-- Reads the options that the shell is run with: whether a text is given as a script, and the
arguments left; `fuel` is more than the number of arguments. -/
def shellArguments : Nat → List String → Running (Bool × List String)
  | 0, args => return (false, args)
  | fuel + 1, args => do
    match args with
    | [] => return (false, [])
    | a :: rest =>
      match a.toList with
      | ['-'] | ['-', '-'] => return (false, rest)
      | '-' :: cs =>
        let rest ← setLetters true (cs.filter fun c => c != 'c' && c != 'l') rest
        let (more, rest) ← shellArguments fuel rest
        return (cs.contains 'c' || more, rest)
      | '+' :: cs => shellArguments fuel (← setLetters false cs rest)
      | _ => return (false, args)

/-- Runs the shell, called by a word, with arguments: a script given as a text, a script in a file,
or its input. -/
def runShell (run : Run) (word : String) (args : List String) : Running Unit := do
  modify fun s => { s with title := word, line := 0 }
  let work : Running Unit := do
    let (isText, args) ← shellArguments (args.length + 1) args
    let s ← get
    match isText, args with
    | true, [] => fail "-c requires an argument"
    | true, [text] => runSession run word [] text
    | true, text :: title :: args => runSession run title args text
    | false, args =>
      if args.isEmpty || s.has 's' then
        let text := lossy s.input
        set s.drained
        runSession run word args text
      else
        let path := args.headD ""
        match s.tree.readBytes ⟨path⟩ with
        | .ok bytes => runSession run path (args.drop 1) (lossy bytes)
        | .error .isDirectory => finish 0
        | .error f =>
          let reason := openText "No such file" f
          fail s!"cannot open {path}: {reason}"
  try work catch
    | .failed => return ()
    | .left => return ()
    | stop => throw stop

/-! ## Programs -/

/-- The words that a program takes from its input. -/
def inputWords (text : String) : List String :=
  ((split ' ' (text.toList.map fun c => if c.isWhitespace then ' ' else c)).filter (· ≠ [])).map
    String.ofList

mutual

/-- Runs a program, given its words, in a session of its own; `fuel` bounds how many programs run
one another. -/
def runProgram (run : Run) : Nat → List String → Running Unit
  | 0, _ => throw (.killed 11)
  | _, [] => finish 0
  | fuel + 1, word :: args => do
    let s ← get
    match lookUp s.tree s.searchPath word with
    | .ok found => runFound run fuel word found args
    | .error (message, status) => modify fun s => s.refuse "env" message status

/-- Runs what a word leads to. -/
def runFound (run : Run) : Nat → String → Found → List String → Running Unit
  | 0, _, _, _ => throw (.killed 11)
  | fuel + 1, word, .stock name, args => do
    if shellNames.contains name then runShell run word args
    else if name = "env" then runEnvironment run fuel args
    else if name = "nohup" then runProgram run fuel args
    else if name = "xargs" then runBatches run fuel args
    else
      match program? name with
      | some act => modify (act args)
      | none => pure ()
      checkTime
  | fuel + 1, _, .script path bytes, args => do
    match interpreter? bytes with
    | some words => runProgram run fuel (words ++ path :: args)
    | none =>
      modify fun s => { s with options := [] }
      runSession run path args (lossy bytes)

/-- Runs a program with further variables, or prints those there are. -/
def runEnvironment (run : Run) : Nat → List String → Running Unit
  | 0, _ => throw (.killed 11)
  | fuel + 1, args => do
    match args with
    | [] => modify fun s => (printenv [] s).ended 0
    | "-" :: rest | "-i" :: rest =>
      modify fun s => { s with bindings := .empty }
      runEnvironment run fuel rest
    | "-u" :: name :: rest =>
      modify fun s => s.forget name
      runEnvironment run fuel rest
    | "--" :: rest => runEnvironment run fuel rest
    | a :: rest =>
      match settingOf a with
      | (name, some value) =>
        modify fun s => s.supply (name, value)
        runEnvironment run fuel rest
      | (_, none) =>
        let s ← get
        let searchPath := (s.value? "PATH").getD usualPath
        match findProgram s.tree searchPath a with
        | .ok found => runFound run fuel a found rest
        | .error f =>
          let reason := faultText f
          set (s.refuse "env" s!"'{a}': {reason}" (if f = .denied then 126 else 127))

/-- Runs a program with the words of the input, all at once or so many at a time. -/
def runBatches (run : Run) : Nat → List String → Running Unit
  | 0, _ => throw (.killed 11)
  | fuel + 1, args => do
    let (size, args) : Nat × List String :=
      match args with
      | "-n" :: n :: rest => (n.toNat?.getD 1, rest)
      | args => (0, args)
    let s ← get
    let words := inputWords (lossy s.input)
    set s.drained
    let command := if args.isEmpty then ["echo"] else args
    let count := if size = 0 then 1 else max 1 ((words.length + size - 1) / size)
    (List.range count).forM fun n =>
      runProgram run fuel
        (command ++ if size = 0 then words else (words.drop (n * size)).take size)

end

/-- How many programs may run one another. -/
def programDepth : Nat := 40

/-- The session of a program that another session runs. -/
def childOf (s : Session) : Session :=
  { s with
    bindings := s.bindings.filter fun _ v => v.exported && v.value.isSome
    functions := .empty
    traps := s.traps.filter fun _ text => text == ""
    rootTraps := .empty
    isInner := false
    shadowed := none
    loops := 0
    calls := 0
    doom := none
    options := []
    line := 0
    task := none
    jobs := []
    lastJob := none
    known := []
    aliases := .empty
    optionIndex := 1
    optionPlace := 0
    standing := none
    heldUntil := 0
    id := s.nextId
    nextId := s.nextId + 1
    place := (Tree.pathOf s.tree.home).text }

/-- Runs what a word leads to in a session of its own; a signal that ends it is given. -/
def inChild (run : Run) (word : String) (found : Found) (args : List String) :
    Running (Option Nat) := do
  let s ← get
  let (result, t) := ((runFound run programDepth word found args).run).run (childOf s)
  set { rejoin s t with pending := s.pending, doom := s.doom }
  match result with
  | .error (.killed signal) => return some signal
  | .error .overdue => throw .overdue
  | _ => return none

end CoverageRun.Shell
