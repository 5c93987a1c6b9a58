/-
Simple commands: their words come to a name and arguments, and the name to a function, something the
shell does itself or a program, which runs with the variables and streams that the command gives it.
-/
import CoverageRun.Shell.Processes

namespace CoverageRun.Shell

open Files Text Running

/-! ## Names and arguments -/

/-- What the next field is where the name of a command is looked for. -/
inductive Lead where
  | name
  /-- An option of the word `command`, or the name. -/
  | option
  /-- The name, whatever it looks like. -/
  | operand

/-- The name of a command and its arguments as far as they are expanded, and the words that are
not. -/
structure Heading where
  /-- What stands before the name: the word `command` with its options. -/
  passed : List String
  fields : List String
  words : List Word
  /-- Whether programs are looked for where they usually are. -/
  isUsual : Bool

/-- Goes past the word `command` in front of a name, where it is not a function: it has functions of
the name passed over. With options that ask about the name it is a command itself. `since` is what
was read since it stood there. -/
def readHeading (r : Runner) (isFunction : Bool) (lead : Lead) (isUsual : Bool)
    (passed since : List String) (ws : List Word) (fs : List String) : Running Heading := do
  match ws, fs with
  | [], [] => return ⟨passed, since, [], isUsual⟩
  | w :: ws, [] => readHeading r isFunction lead isUsual passed since ws (← r.fields w)
  | ws, f :: fs =>
    let named : Running Heading :=
      if f = "command" ∧ !(isFunction && (passed ++ since).isEmpty) then
        readHeading r isFunction .option isUsual (passed ++ since) [f] ws fs
      else return ⟨passed ++ since, f :: fs, ws, isUsual⟩
    match lead, f.toList with
    | .option, ['-', '-'] => readHeading r isFunction .operand isUsual passed (since ++ [f]) ws fs
    | .option, '-' :: c :: cs =>
      if (c :: cs).all (· == 'p') then
        readHeading r isFunction .option true passed (since ++ [f]) ws fs
      else return ⟨passed, since ++ f :: fs, ws, isUsual⟩
    | _, _ => named
termination_by (ws.length, fs.length)

/-- Expands arguments. Those that look like settings of variables are settings where `asSettings`
says so. -/
def argumentsOf (r : Runner) (asSettings : Bool) (ws : List Word) : Running (List String) := do
  let fields ← ws.mapM fun w => do
    match if asSettings then settingOf? w else none with
    | some (name, value) => return [name ++ "=" ++ (← r.value value)]
    | none => r.fields w
  return fields.flatten

/-- What sets variables by its arguments. -/
def settingBuiltins : List String := ["alias", "export", "local", "readonly"]

/-! ## Functions -/

/-- How many functions may call one another. -/
def callLimit : Nat := 1000

/-- Runs a function with arguments. Its variables are as they were after it. -/
def callFunction (run : Run) (c : Regard) (body : Script) (args : List String) :
    Running Unit := do
  let s ← get
  if s.calls ≥ callLimit then
    fail s!"Maximum function recursion depth ({callLimit}) reached"
  let inside := { s.atOption 1 with
    arguments := args, shadowed := some [], loops := 0, calls := s.calls + 1 }
  let (result, t) := ((run c body).run).run inside
  let back (t : Session) : Session :=
    { t with
      arguments := s.arguments
      shadowed := s.shadowed
      loops := s.loops
      calls := s.calls
      optionIndex := s.optionIndex
      optionPlace := s.optionPlace }
  match result with
  | .ok () | .error (.returned _) => set (back ((t.shadowed.getD []).foldl Session.restore t))
  | .error stop =>
    set (back t)
    throw stop

/-! ## Scripts -/

/-- Runs its arguments as a text. -/
def evaluate (run : Run) (c : Regard) : Builtin := fun args =>
  if args.isEmpty then finish 0 else runText run c (joinText " " args)

/-- The path of a script, looked for by way of the search path if it is a name. -/
def scriptPath (name : String) : Running String := do
  if name.toList.contains '/' then return name
  else
    let s ← get
    let isFile (path : String) : Bool := s.tree.find true ⟨path⟩ matches .ok (_, .file _ _)
    match (candidates s.searchPath name).find? isFile with
    | some path => return path
    | none => fail s!"{name}: not found"

/-- Runs a script in this session. -/
def readIn (run : Run) : Builtin := fun args => do
  let (_, args) ← optionsOf "" "" args
  match args with
  | [] => finish 0
  | name :: _ =>
    let path ← scriptPath name
    match (← get).tree.readBytes ⟨path⟩ with
    | .error .isDirectory => finish 0
    | .error f =>
      let reason := openText "No such file" f
      fail s!"cannot open {path}: {reason}"
    | .ok bytes =>
      modify fun s => { s with task := some path }
      try runText run .usual (lossy bytes) catch
        | .returned _ => return ()
        | stop => throw stop

/-! ## Programs -/

/-- Runs a program in a session of its own. -/
def callProgram (run : Run) (isUsual : Bool) (name : String) (args : List String) :
    Running Unit := do
  let s ← get
  match lookUp s.tree (if isUsual then shellPath else s.searchPath) name with
  | .error (message, status) => warn message status
  | .ok found =>
    if !isUsual && !name.toList.contains '/' && !s.known.contains name then
      set { s with known := name :: s.known }
    match ← inChild run name found args with
    | none => return ()
    | some signal => mourn signal

/-- Runs a program in place of the session, or does nothing without arguments. -/
def replace (run : Run) : Builtin := fun args => do
  let (_, args) ← optionsOf "" "" args
  match args with
  | [] => finish 0
  | name :: args =>
    let s ← get
    match lookUp s.tree s.searchPath name with
    | .error (message, status) =>
      warn message status
      throw .left
    | .ok found =>
      let signal ← inChild run name found args
      modify fun s => { s with traps := .empty }
      throw ((signal.map fun n => Stop.killed n).getD .left)

/-- Tells what the name behind options stands for. -/
def describeCommand : Builtin := fun args => do
  let (options, names) ← optionsOf "pvV" "" args
  let letters := options.map (·.1)
  match names with
  | name :: _ =>
    if letters.contains 'v' || letters.contains 'V' then
      finish (if ← describe (letters.contains 'V') name then 0 else 127)
    else finish 0
  | [] => finish 0

/-! ## Actions -/

/-- What a command does. -/
inductive Action where
  | nothing
  | function (body : Script)
  /-- What the shell does itself. If it is `special`, it ends the session where it fails, and the
  settings before it stay. -/
  | own (special : Bool) (act : Builtin)
  | program (isUsual : Bool)

/-- What the shell does itself by a name. -/
def ownAction? (run : Run) (c : Regard) (name : String) : Option Builtin :=
  match name with
  | "eval" => some (evaluate run c)
  | "." => some (readIn run)
  | "exec" => some (replace run)
  | "command" => some describeCommand
  | name => builtin? name

/-- What a command with a heading does. -/
def actionOf (run : Run) (c : Regard) (s : Session) (h : Heading) : Action :=
  match h.fields with
  | [] => .nothing
  | name :: _ =>
    match if h.passed.isEmpty then s.functions.get? name else none with
    | some body => .function body
    | none =>
      match ownAction? run c name with
      | some act => .own (h.passed.isEmpty && specialBuiltins.contains name) act
      | none => .program h.isUsual

/-- Does what the shell does itself. It fails besides where its output leads nowhere at all. -/
def doItself (name : String) (args : List String) (act : Builtin) : Running Unit := do
  let s ← get
  if (s.streams.get? Stream.output).isSome then act args
  else
    let n := nextChannel s
    set (s.lead .output (.kept []))
    try act args finally
      modify fun t => { t with streams := t.streams.filter fun stream _ => stream != Stream.output }
    let t ← get
    set (swept n t)
    if t.written n ≠ [] then warn s!"{name}: I/O error" (t.status ||| 1)

/-- Runs what a command does, given its name and its arguments. -/
def Action.run (run : Run) (c : Regard) (fields : List String) (a : Action) :
    Running Unit := do
  let name := fields.headD ""
  let args := fields.drop 1
  match a with
  | .nothing => finish (← get).answered
  | .function body => callFunction run c body args
  | .program isUsual => callProgram run isUsual name args
  | .own special act =>
    let task := (← get).task
    try
      modify fun s => { s with task := some name }
      if (builtin? name).isSome then doItself name args act else act args
    catch
      | .failed =>
        if special then throw .failed
        else modify fun s => { s with task }
      | stop =>
        modify fun s => { s with task }
        throw stop
    modify fun s => { s with task }

/-! ## Simple commands -/

/-- Sets the variables before a command, one after another: for the command alone, with what they
were, or for good. -/
def setVariables (r : Runner) (isOwn isSeen : Bool) (settings : List (String × Word)) :
    Running (List (String × String) × List (String × Option Setting)) := do
  let mut given := []
  let mut old := []
  for (name, w) in settings do
    let value ← r.value w
    old := (name, (← get).bindings.get? name) :: old
    assign name value
    if isOwn || isSeen then modify fun s => s.expose name
    given := (name, value) :: given
  return (given.reverse, if isOwn then old else [])

/-- Shows a command before it runs, where the errors led to before it. -/
def trace (r : Runner) (streams : Store.OrderedMap Stream Nat)
    (settings : List (String × String)) (fields : List String) : Running Unit := do
  let s ← get
  if s.has 'x' then
    let shown := settings.map (fun v => v.1 ++ "=" ++ v.2) ++ fields
    let lead ← r.lines (looseWord ((s.value? "PS4").getD "").toList)
    modify fun s =>
      { { s with streams }.complain (lead ++ joinText " " shown) with streams := s.streams }

/-- Runs a simple command. -/
def runSimple (run : Run) (c : Regard) (line : Nat) (settings : List (String × Word))
    (words : List Word) (redirections : List Redirection) : Running Unit := do
  modify fun s => { s with line, answered := 0 }
  let r := runnerOf run
  let isFunction := ((← get).functions.get? "command").isSome
  let h ← readHeading r isFunction .name false [] [] words []
  let action := actionOf run c (← get) h
  let name := h.fields.headD ""
  let (isOwnAction, isSpecial) : Bool × Bool :=
    match action with
    | .own special _ => (true, special)
    | _ => (false, false)
  let more ← argumentsOf r (isOwnAction && settingBuiltins.contains name) h.words
  let fields := h.fields ++ more
  let connections ← redirections.mapM r.connection
  let before ← get
  let isLasting := isOwnAction && name == "exec"
  try
    if ← connectAll connections then
      let isLocal := !isSpecial && !fields.isEmpty
      let (given, old) ←
        setVariables r isLocal (isLasting && fields.length > 1) settings
      trace r before.streams given (h.passed ++ fields)
      try
        action.run run c fields
      finally
        modify fun s => old.foldl Session.restore s
    else if isSpecial then throw .failed
  finally
    if !isLasting then
      modify fun s => swept (nextChannel before) { s with streams := before.streams }

end CoverageRun.Shell
