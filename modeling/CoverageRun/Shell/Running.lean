/-
Running in a session: work that reads and changes it, and may stop before its end.
-/
import CoverageRun.Shell.Field
import CoverageRun.Shell.Sum

namespace CoverageRun.Shell

open Files

/-! ## Stopping -/

/-- Why work in a session stops before its end. -/
inductive Stop where
  /-- The session is at its end. -/
  | left
  /-- Something has failed that ends the session, unless a command holds it back. -/
  | failed
  /-- A signal, given by its number, has ended the session. -/
  | killed (signal : Nat)
  /-- The session takes more time than it has. -/
  | overdue
  /-- The loops of some levels are left, or the outermost of them begins its next turn. -/
  | broken (levels : Nat) (again : Bool)
  /-- A function or script is left, with a status that is `chosen` or the last one. -/
  | returned (chosen : Bool)
  deriving DecidableEq, Repr

/-- Work in a session. What it has done stays done where it stops. -/
abbrev Running := ExceptT Stop (StateM Session)

/-- Whether the status of a command is looked at, so that it may fail. -/
inductive Regard where
  | usual
  | tested
  deriving DecidableEq, Repr

namespace Running

/-! ## Failing -/

/-- Ends a command with a status. -/
def finish (status : Nat) : Running Unit := modify fun s => { s with status }

/-- Fails with a message, and with status 2. -/
def fail {α : Type} (message : String) : Running α := do
  modify fun s => s.protest message 2
  throw .failed

/-- Writes a message of the shell. -/
def warn (message : String) (status : Nat) : Running Unit :=
  modify fun s => s.protest message status

/-- Stops where the time is up. -/
def checkTime : Running Unit := do
  if (← get).isOverdue then throw .overdue

/-! ## Variables -/

/-- Sets a variable, if it can be set. -/
def assign (name value : String) : Running Unit := do
  let s ← get
  if !isName name then fail s!"{name}: bad variable name"
  else if s.isFixed name then fail s!"{name}: is read only"
  else set (s.assign name value)

/-- Removes a variable, if it can be removed. -/
def forget (name : String) : Running Unit := do
  let s ← get
  if !isName name then fail s!"{name}: bad variable name"
  else if s.isFixed name then fail s!"{name}: is read only"
  else set (s.forget name)

/-- The value of a sum as a text. -/
def sum (text : String) : Running String := do
  let (result, s) := ((Sum.value text).run).run (← get)
  set s
  match result with
  | .ok n => return toString n.toInt
  | .error .overflow => throw (.killed 8)
  | .error f => fail (f.message text)

/-! ## Parts of sessions -/

/-- The session without what streams led to that no stream leads to any more, as far as it was made
after `first`. -/
def swept (first : Nat) (s : Session) : Session :=
  let isUsed (n : Nat) : Bool := s.streams.entries.any fun e => e.2 == n
  { s with channels := s.channels.filter fun n _ => n < first || isUsed n }

/-- The number that the next thing a stream leads to gets. -/
def nextChannel (s : Session) : Nat := (s.channels.entries.getLast?.map fun e => e.1 + 1).getD 0

/-- The session after a part of it that has changed no more than files, streams and time, and
commands left behind. -/
def rejoin (outer inner : Session) : Session :=
  let (shared, others) := inner.jobs.partition fun j => outer.jobs.any fun k => k.id == j.id
  { outer with
    jobs := outer.jobs.map fun j => (shared.find? fun k => k.id == j.id).getD j
    tree := { inner.tree with home := outer.tree.home }
    channels := inner.channels
    status := inner.status % 256
    elapsed := inner.elapsed
    nextId := inner.nextId
    heldUntil := max outer.heldUntil { inner with jobs := others }.isHeldUntil
    pending := inner.pending
    doom := inner.doom }

/-- What the shell says of a program that a signal has ended. -/
def signalText (signal : Nat) : Option String :=
  match signal with
  | 1 => some "Hangup"
  | 3 => some "Quit"
  | 4 => some "Illegal instruction"
  | 5 => some "Trace/breakpoint trap"
  | 6 => some "Aborted"
  | 7 => some "Bus error"
  | 8 => some "Floating point exception"
  | 9 => some "Killed"
  | 10 => some "User defined signal 1"
  | 11 => some "Segmentation fault"
  | 12 => some "User defined signal 2"
  | 14 => some "Alarm clock"
  | 15 => some "Terminated"
  | 16 => some "Stack fault"
  | 24 => some "CPU time limit exceeded"
  | 25 => some "File size limit exceeded"
  | 26 => some "Virtual timer expired"
  | 27 => some "Profiling timer expired"
  | 29 => some "I/O possible"
  | 30 => some "Power failure"
  | 31 => some "Bad system call"
  | n => if 34 ≤ n then some s!"Real-time signal {n - 34}" else none

/-- Tells of a signal that has ended a program: its death is no more than a status. -/
def mourn (signal : Nat) : Running Unit := do
  modify fun s => match signalText signal with
    | some text => s.complain text
    | none => s
  finish (128 + signal)

/-- Runs what is set for the end of the session. Its status is as before, unless it says
otherwise. -/
def atEnd (work : String → Running Unit) : Running Unit := do
  let s ← get
  match s.trap? 0 with
  | none => return ()
  | some text =>
    set { s.setTrap none 0 with standing := some s.status }
    try
      work text
      finish s.status
    catch
      | .left => return ()
      | .killed signal => throw (.killed signal)
      | .overdue => throw .overdue
      | .failed => return ()
      | _ => finish s.status

/-- Runs work to the end of its session. -/
def toEnd (traps : String → Running Unit) (work : Running Unit) : Running Unit := do
  try
    work
  catch
    | .killed signal => throw (.killed signal)
    | .overdue => throw .overdue
    | _ => pure ()
  atEnd traps

/-- Runs work in a session of its own, which gives this one its status. -/
def apart (traps : String → Running Unit) (work : Running Unit) : Running Unit := do
  let s ← get
  let (result, t) := ((toEnd traps work).run).run s.forked
  set (rejoin s t)
  match result with
  | .ok () => return ()
  | .error (.killed signal) => mourn signal
  | .error stop => throw stop

/-- Ends the session if a part of it has sent it a signal that does so. -/
def meetDoom : Running Unit := do
  let s ← get
  match if s.isInner then none else s.doom with
  | some signal => throw (.killed signal)
  | none => return ()

/-- The output of work in a session of its own. -/
def collect (traps : String → Running Unit) (work : Running Unit) : Running (List UInt8) := do
  let s ← get
  let n := nextChannel s
  set (s.lead .output (.kept []))
  try
    apart traps work
  finally
    modify fun t => { t with streams := s.streams }
  let bytes := (← get).written n
  modify fun t => { swept n t with elapsed := max t.elapsed t.heldUntil }
  meetDoom
  return bytes

end Running

end CoverageRun.Shell
