/-
What the shell does itself with signals and with commands whose end it did not wait for.
-/
import CoverageRun.Shell.Builtins.Variables

namespace CoverageRun.Shell

open Text Running

/-! ## Names -/

/-- The names of the signals by their numbers; the end of a session counts as one. -/
def signalNames : List String :=
  ["EXIT", "HUP", "INT", "QUIT", "ILL", "TRAP", "ABRT", "BUS", "FPE", "KILL", "USR1", "SEGV",
    "USR2", "PIPE", "ALRM", "TERM", "16", "CHLD", "CONT", "STOP", "TSTP", "TTIN", "TTOU", "URG",
    "XCPU", "XFSZ", "VTALRM", "PROF", "WINCH", "IO", "PWR", "SYS", "32", "33", "RTMIN"] ++
    (List.range 15).map (fun n => s!"RTMIN+{n + 1}") ++
    (List.range 14).map (fun n => s!"RTMAX-{14 - n}") ++ ["RTMAX"]

/-- The number of a signal, which a name or a number gives. -/
def signalNumber? (text : String) : Option Nat :=
  let cs := text.toList
  if cs ≠ [] ∧ cs.all isDigit then
    let n := Numeral.value cs
    if n < signalNames.length then some n else none
  else
    let upper := String.ofList (cs.map Char.toUpper)
    signalNames.findIdx? (· == upper)

/-- Signals that change nothing where nothing is set for them. -/
def idleSignals : List Nat := [17, 18, 23, 28]

/-- Signals that stop a session, which then goes on no more. -/
def stopSignals : List Nat := [19, 20, 21, 22]

/-! ## Sending -/

/-- Sends a signal to the session that has the number of this one. -/
def signalSelf (signal : Nat) : Running Unit := do
  let s ← get
  let traps := if s.isInner then s.rootTraps else s.traps
  match if signal = 9 ∨ signal = 19 then none else traps.get? signal with
  | some "" => return ()
  | some _ => set { s with pending := s.pending ++ [signal] }
  | none =>
    if signal = 0 ∨ idleSignals.contains signal then return ()
    else if stopSignals.contains signal then throw .overdue
    else if s.isInner then set { s with doom := s.doom.or (some signal) }
    else throw (.killed signal)

/-- Sends a signal to what a number names: whether there is such a thing. -/
def signalTo (signal : Nat) (id : Nat) : Running Bool := do
  let s ← get
  if id = s.id ∨ id = 0 then
    signalSelf signal
    return true
  else if s.jobs.any fun j => j.id == id then
    let isAlive (j : Job) : Bool := j.id == id && s.elapsed < j.finish
    if signal ≠ 0 ∧ !idleSignals.contains signal then
      set { s with
        jobs := s.jobs.map fun j =>
          if isAlive j then { j with status := 128 + signal, finish := s.elapsed } else j }
    return true
  else return false

/-- How signals are sent. -/
def killUsage : String :=
  "Usage: kill [-s sigspec | -signum | -sigspec] [pid | job]... or\nkill -l [exitstatus]"

/-- Sends a signal to each of several things. -/
def killAll (signal : Nat) (ids : List String) : Running Unit := do
  if ids.isEmpty then fail killUsage
  let failed ← ids.filterM fun id => do
    if id.startsWith "%" then fail s!"No such job: {id}"
    let digits := (afterText? "-" id).getD id
    let there ← signalTo signal (← countOf digits)
    if !there then warn "No such process\n" 1
    return !there
  finish (if failed.isEmpty then 0 else 1)

/-- Lists the names of signals, or the one that a number or a status stands for. -/
def listSignals (args : List String) : Running Unit := do
  match args with
  | [] =>
    let lines := "0" :: signalNames.drop 1
    modify fun s => s.say (String.join (lines.map (· ++ "\n")))
    finish 0
  | text :: _ =>
    let n ← countOf text
    let n := if n > 128 then n - 128 else n
    if 0 < n ∧ n < signalNames.length then
      modify fun s => s.say ((signalNames[n]?).getD "" ++ "\n")
      finish 0
    else fail s!"invalid signal number or exit status: {text}"

/-- Sends signals, or lists their names. -/
def kill : Builtin := fun args => do
  match args with
  | [] => fail killUsage
  | a :: rest =>
    if !a.startsWith "-" then killAll 15 args
    else
      match signalNumber? (String.ofList (a.toList.drop 1)) with
      | some signal => killAll signal rest
      | none =>
        let (options, ids) ← optionsOf "l" "s" args
        match options.find? fun o => o.1 = 's', options.any fun o => o.1 = 'l' with
        | none, true => listSignals ids
        | some (_, name), _ =>
          match signalNumber? name with
          | some signal => killAll signal ids
          | none => fail s!"invalid signal number or name: {name}"
        | none, false => killAll 15 ids

/-! ## Traps -/

/-- Sets what runs when signals come, or lists that. -/
def setTraps : Builtin := fun args => do
  let (_, args) ← optionsOf "" "" args
  match args with
  | [] =>
    let s ← get
    let lines := s.traps.entries.map fun t =>
      let name := (signalNames[t.1]?).getD ""
      s!"trap -- {singleQuoted t.2} {name}\n"
    set (s.say (String.join lines))
    finish 0
  | first :: rest =>
    let isNumber := first.toList.all isDigit && (signalNumber? first).isSome && first != ""
    let (action, names) :=
      if rest.isEmpty || isNumber then (none, args)
      else (if first = "-" then none else some first, rest)
    let known := names.takeWhile fun name => (signalNumber? name).isSome
    known.forM fun name => modify fun s => s.setTrap action ((signalNumber? name).getD 0)
    match names.drop known.length with
    | [] => finish 0
    | bad :: _ =>
      modify fun s => s.complain s!"trap: {bad}: bad trap"
      finish 1

/-! ## Waiting -/

/-- Waits for the end of what a number names. -/
def waitFor (text : String) : Running Unit := do
  if text.startsWith "%" then fail s!"No such job: {text}"
  let id ← countOf text
  let s ← get
  match s.jobs.find? fun j => j.id == id with
  | none => finish 127
  | some j =>
    set { s with
      elapsed := max s.elapsed j.finish
      jobs := s.jobs.filter fun k => k.id != id }
    if j.status > 128 then mourn (j.status - 128) else finish j.status
    checkTime

/-- Waits for the end of commands. -/
def wait : Builtin := fun args => do
  let (_, args) ← optionsOf "" "" args
  if args.isEmpty then
    modify fun s => { s with elapsed := s.jobs.foldl (fun t j => max t j.finish) s.elapsed }
    checkTime
    finish 0
  else args.forM waitFor

end CoverageRun.Shell
