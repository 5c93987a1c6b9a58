/-
A session of the shell: the tree it works on, from the directory it is in, its variables, functions
and arguments, where its streams lead, its status and its time.
-/
import CoverageRun.Files.Operations
import CoverageRun.Shell.Number
import CoverageRun.Shell.Words

namespace CoverageRun.Shell

open Files Store

/-! ## Sessions -/

/-- The value of a variable, if it has one, and whether programs see it and nothing changes it. -/
structure Setting where
  value : Option String
  exported : Bool
  fixed : Bool
  deriving DecidableEq, Repr, Inhabited

/-- What a stream leads to. -/
inductive Channel where
  /-- What is written is kept, the last piece first. -/
  | kept (pieces : List (List UInt8))
  /-- Octets that are still to be read. -/
  | source (bytes : List UInt8)
  /-- A file, read and written at a place in it, or written at its end. -/
  | file (loc : Location) (place : Nat) (atEnd : Bool)
  | nowhere
  deriving DecidableEq, Repr, Inhabited

/-- The number of a stream. -/
abbrev Stream := Nat

namespace Stream

def input : Stream := 0

def output : Stream := 1

def errors : Stream := 2

end Stream

/-- A command whose end was not waited for: its number, how it ends, and when. -/
structure Job where
  id : Nat
  status : Nat
  finish : Nat
  /-- Whether it can write to what the session writes to. -/
  holds : Bool
  deriving DecidableEq, Repr

/-- A session of the shell. -/
structure Session where
  tree : Tree
  bindings : OrderedMap String Setting
  functions : OrderedMap String Script
  /-- What the session calls itself. -/
  title : String
  arguments : List String
  /-- All that streams lead or have led to. -/
  channels : OrderedMap Nat Channel
  /-- Which of these each stream leads to. -/
  streams : OrderedMap Stream Nat
  status : Nat
  /-- The status of the last command whose output a command has asked for. -/
  answered : Nat
  /-- The time taken so far, in thousandths of a second. -/
  elapsed : Nat
  limit : Option Nat
  /-- The line the session is at. -/
  line : Nat
  /-- The command that is at work, as messages name it. -/
  task : Option String
  /-- What runs in place of the end that a signal brings; nothing does where the text is empty.
  Number 0 is for the end of the session itself. -/
  traps : OrderedMap Nat String
  /-- Inside a function, what variables were before that are its own. -/
  shadowed : Option (List (String × Option Setting))
  /-- The number of loops around, in the function, and that of functions around. -/
  loops : Nat
  calls : Nat
  /-- The letters of the options that are set. -/
  options : List Char
  /-- The number by which the session is known, and the next one that is free. -/
  id : Nat
  nextId : Nat
  jobs : List Job
  /-- The number of the last command whose end was not waited for. -/
  lastJob : Option Nat
  /-- The argument whose options are read next, and how far the one before has been read. -/
  optionIndex : Nat
  optionPlace : Nat
  /-- The path to the directory the session is in, as it was come by. -/
  place : String
  /-- The rights that new files do not get. -/
  mask : Nat
  /-- The programs that were looked up by their names. -/
  known : List String
  aliases : OrderedMap String String
  /-- Whether the session is a part of another one, which has its number. -/
  isInner : Bool
  /-- What runs when signals come to the session that has the number. -/
  rootTraps : OrderedMap Nat String
  /-- The signals that have come and for which something is to run. -/
  pending : List Nat
  /-- The signal that has ended the session whose part this is. -/
  doom : Option Nat
  /-- While something runs for a signal, the status from before it. -/
  standing : Option Nat
  /-- Until when commands that are known no more can write to what the session writes to. -/
  heldUntil : Nat

namespace Session

/-- A session of a program at its beginning. -/
def start (tree : Tree) (environment : List (String × String)) (limit : Option Nat) :
    Session where
  tree
  bindings := .ofList (environment.map fun v => (v.1, ⟨some v.2, true, false⟩))
  functions := .empty
  title := "sh"
  arguments := []
  channels := .ofList
    [(Stream.input, .source []), (Stream.output, .kept []), (Stream.errors, .kept [])]
  streams := .ofList [(0, 0), (1, 1), (2, 2)]
  status := 0
  answered := 0
  elapsed := 0
  limit
  line := 0
  task := none
  traps := .empty
  shadowed := none
  loops := 0
  calls := 0
  options := []
  id := 4096
  nextId := 4097
  jobs := []
  lastJob := none
  optionIndex := 1
  optionPlace := 0
  place := (Tree.pathOf tree.home).text
  mask := 18
  known := []
  aliases := .empty
  isInner := false
  rootTraps := .empty
  pending := []
  doom := none
  standing := none
  heldUntil := 0

/-! ## Status and time -/

/-- The session after a command that ends with a status. -/
def ended (s : Session) (status : Nat) : Session := { s with status := status % 256 }

/-- The session after a test. -/
def tell (s : Session) (b : Bool) : Session := s.ended (if b then 0 else 1)

/-- The session some time later. -/
def after (s : Session) (time : Nat) : Session := { s with elapsed := s.elapsed + time }

/-- Whether the session has taken more time than it has. -/
def isOverdue (s : Session) : Bool :=
  (s.limit.map fun limit => decide (limit ≤ s.elapsed)).getD false

/-- Whether an option is set. -/
def has (s : Session) (option : Char) : Bool := s.options.contains option

/-! ## Streams -/

/-- What a stream leads to, with its number. -/
def channel? (s : Session) (stream : Stream) : Option (Nat × Channel) := do
  let n ← s.streams.get? stream
  return (n, ← s.channels.get? n)

/-- The session with something else in place of what streams lead to. -/
def setChannel (s : Session) (n : Nat) (c : Channel) : Session :=
  { s with channels := s.channels.insert n c }

/-- The session in which a stream leads to something new. -/
def lead (s : Session) (stream : Stream) (c : Channel) : Session :=
  let n := (s.channels.entries.getLast?.map fun e => e.1 + 1).getD 0
  { s with channels := s.channels.insert n c, streams := s.streams.insert stream n }

/-- Octets with others put over them from a place on. -/
def overwrite (old : List UInt8) (place : Nat) (bytes : List UInt8) : List UInt8 :=
  let gap := List.replicate (place - old.length) 0
  old.take place ++ gap ++ bytes ++ old.drop (place + bytes.length)

/-- Writes octets to a stream. -/
def put (s : Session) (stream : Stream) (bytes : List UInt8) : Session :=
  match s.channel? stream with
  | some (n, .kept pieces) => if bytes = [] then s else s.setChannel n (.kept (bytes :: pieces))
  | some (n, .file loc place atEnd) =>
    match s.tree.entry? loc with
    | some (.file old executable) =>
      let place := if atEnd then old.length else place
      let tree := s.tree.put loc (.file (overwrite old place bytes) executable)
      { s with tree }.setChannel n (.file loc (place + bytes.length) atEnd)
    | _ => s
  | _ => s

/-- What is left to be read from a stream. -/
def left (s : Session) (stream : Stream) : List UInt8 :=
  match s.channel? stream with
  | some (_, .source bytes) => bytes
  | some (_, .file loc place _) =>
    match s.tree.entry? loc with
    | some (.file bytes _) => bytes.drop place
    | _ => []
  | _ => []

/-- What is left to be read from the input. -/
def input (s : Session) : List UInt8 := s.left .input

/-- The session after some octets were read from the input. -/
def consume (s : Session) (count : Nat) : Session :=
  match s.channel? .input with
  | some (n, .source bytes) => s.setChannel n (.source (bytes.drop count))
  | some (n, .file loc place atEnd) => s.setChannel n (.file loc (place + count) atEnd)
  | _ => s

/-- The session after all of the input was read. -/
def drained (s : Session) : Session := s.consume s.input.length

/-- All that was written to what a number stands for. -/
def written (s : Session) (n : Nat) : List UInt8 :=
  match s.channels.get? n with
  | some (.kept pieces) => pieces.reverse.flatten
  | _ => []

/-! ## Messages -/

/-- Writes a text to the output. -/
def say (s : Session) (text : String) : Session := s.put .output (Text.octets text)

/-- Writes a line to the errors. -/
def complain (s : Session) (text : String) : Session := s.put .errors (Text.octets (text ++ "\n"))

/-- Fails with a message of a program. -/
def refuse (s : Session) (program message : String) (status : Nat) : Session :=
  (s.complain s!"{program}: {message}").ended status

/-- Fails with a message of the shell, which says on which line of what it is. -/
def protest (s : Session) (message : String) (status : Nat) : Session :=
  let place := s!"{s.title}: {s.line}"
  s.refuse (match s.task with
    | some task => s!"{place}: {task}"
    | none => place) message status

/-! ## Variables -/

/-- The value of a variable. -/
def value? (s : Session) (name : String) : Option String :=
  (s.bindings.get? name).bind (·.value)

/-- Whether nothing changes a variable. -/
def isFixed (s : Session) (name : String) : Bool :=
  ((s.bindings.get? name).map (·.fixed)).getD false

/-- The session in which the options of an argument are read next. -/
def atOption (s : Session) (index : Nat) : Session :=
  { s with optionIndex := max index 1, optionPlace := 0 }

/-- Sets a variable, which programs see if they saw it before or see all. -/
def assign (s : Session) (name value : String) : Session :=
  let old := (s.bindings.get? name).getD ⟨none, false, false⟩
  let s := if name = "OPTIND" then s.atOption ((countValue? value).getD 1) else s
  let setting := { old with value := some value, exported := old.exported || s.has 'a' }
  { s with bindings := s.bindings.insert name setting }

/-- Lets programs see a variable. -/
def expose (s : Session) (name : String) : Session :=
  let old := (s.bindings.get? name).getD ⟨none, false, false⟩
  { s with bindings := s.bindings.insert name { old with exported := true } }

/-- Lets nothing change a variable. -/
def fix (s : Session) (name : String) : Session :=
  let old := (s.bindings.get? name).getD ⟨none, false, false⟩
  { s with bindings := s.bindings.insert name { old with fixed := true } }

/-- Sets a variable that programs see. -/
def supply (s : Session) (v : String × String) : Session := (s.assign v.1 v.2).expose v.1

/-- Removes a variable. -/
def forget (s : Session) (name : String) : Session :=
  { s with bindings := s.bindings.filter fun n _ => n != name }

/-- Makes a variable what it was. -/
def restore (s : Session) (v : String × Option Setting) : Session :=
  match v.2 with
  | some old => { s with bindings := s.bindings.insert v.1 old }
  | none => s.forget v.1

/-- The characters at which expansions are split. -/
def breaks (s : Session) : List Char := ((s.value? "IFS").getD " \t\n").toList

/-- The search path of the session. -/
def searchPath (s : Session) : String := (s.value? "PATH").getD ""

/-- The variables that programs see. -/
def environment (s : Session) : List (String × String) :=
  s.bindings.entries.filterMap fun v =>
    if v.2.exported then v.2.value.map (v.1, ·) else none

/-! ## Signals -/

/-- What runs when a signal comes. No text keeps the signal that nothing withstands. -/
def trap? (s : Session) (signal : Nat) : Option String :=
  if signal = 9 then none else s.traps.get? signal

/-- Sets what runs when a signal comes, or nothing. -/
def setTrap (s : Session) (text : Option String) (signal : Nat) : Session :=
  match text with
  | some text => { s with traps := s.traps.insert signal text }
  | none => { s with traps := s.traps.filter fun n _ => n != signal }

/-- The session as a part of it begins: without what runs when signals come, but those without
effect still have none. -/
def forked (s : Session) : Session :=
  { s with
    traps := s.traps.filter fun _ text => text == ""
    isInner := true
    rootTraps := if s.isInner then s.rootTraps else s.traps
    standing := none }

/-! ## Commands left behind -/

/-- Until when commands whose end was not waited for can write to what the session writes to. -/
def isHeldUntil (s : Session) : Nat :=
  s.jobs.foldl (fun time j => if j.holds then max time j.finish else time) s.heldUntil

end Session

end CoverageRun.Shell
