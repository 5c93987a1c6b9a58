/-
The running of scripts. What a command does is a function of the session it runs in; how deep
commands stand in commands is bounded, and so is the number of turns a loop takes.
-/
import CoverageRun.Shell.Commands

namespace CoverageRun.Shell

open Files Text Running Store

/-! ## Loops -/

/-- Takes turns until one says that it was the last, or more turns than `fuel` would come. -/
def turns {σ : Type} (turn : σ → Running (Option σ)) : Nat → σ → Session →
    Except Stop Unit × Session
  | 0, _, s => (.error .overdue, s)
  | fuel + 1, a, s =>
    match ((turn a).run).run s with
    | (.ok (some b), s) => turns turn fuel b s
    | (.ok none, s) => (.ok (), s)
    | (.error stop, s) => (.error stop, s)

/-- How many turns a loop may take. -/
def turnLimit : Nat := 400000

/-- Takes the turns of a loop. -/
def loop {σ : Type} (turn : σ → Running (Option σ)) (a : σ) : Running Unit := do
  let s ← get
  let (result, t) := turns turn turnLimit a { s with loops := s.loops + 1 }
  set { t with loops := s.loops }
  match result with
  | .ok () => return ()
  | .error stop => throw stop

/-- Runs a part of a loop: whether the loop goes on behind it, or else whether it takes further
turns. -/
def inLoop (work : Running Unit) : Running (Except Bool Unit) := do
  try
    work
    return .ok ()
  catch
    | .broken levels again =>
      if levels ≤ 1 then return .error again else throw (.broken (levels - 1) again)
    | stop => throw stop

/-- Runs a loop on a test. Its status is that of the last turn. -/
def runLoop (run : Run) (c : Regard) (untilTrue : Bool) (test body : Script) :
    Running Unit := do
  let turn (last : Nat) : Running (Option Nat) := do
    match ← inLoop (run .tested test) with
    | .error true => return some last
    | .error false =>
      finish last
      return none
    | .ok () =>
      if ((← get).status == 0) = untilTrue then
        finish last
        return none
      else
        match ← inLoop (run c body) with
        | .ok () | .error true => return some (← get).status
        | .error false => return none
  loop turn 0

/-- Runs a loop over words. -/
def runEach (run : Run) (c : Regard) (name : String) (fields : List String)
    (body : Script) : Running Unit := do
  let turn (left : List String) : Running (Option (List String)) := do
    match left with
    | [] => return none
    | word :: left =>
      assign name word
      match ← inLoop (run c body) with
      | .ok () | .error true => return some left
      | .error false => return none
  if fields.isEmpty then finish 0 else loop turn fields

/-! ## Choices -/

/-- Whether one of several patterns matches a text. -/
def anyMatches (r : Runner) (text : String) : List Word → Running Bool
  | [] => return false
  | w :: ws => do
    if (← r.pattern w).matches text.toList then return true else anyMatches r text ws

/-- Runs the first arm with a pattern that matches a text. -/
def runArms (run : Run) (c : Regard) (text : String) :
    List (List Word × Script) → Running Unit
  | [] => finish 0
  | (patterns, body) :: arms => do
    if ← anyMatches (runnerOf run) text patterns then
      if body matches .sequence [] then finish 0 else run c body
    else runArms run c text arms

/-! ## Sessions beside this one -/

/-- Runs a command in a session of its own. -/
def runApart (run : Run) (c : Regard) (body : Script) (ds : List Redirection) :
    Running Unit := do
  let r := runnerOf run
  let connections ← ds.mapM r.connection
  let s ← get
  let work : Running Unit := do
    if ← connectAll connections then run c body
  try apart r.traps work finally
    modify fun t => swept (nextChannel s) { t with streams := s.streams }

/-- Runs commands each of which reads what the one before it writes, all from the same time on. -/
def runPipe (run : Run) (c : Regard) (start : Nat) (input : Option (List UInt8)) :
    List Script → Running Unit
  | [] => return ()
  | part :: rest => do
    let s ← get
    let opened := match input with
      | some bytes => s.lead .input (.source bytes)
      | none => s
    let n := nextChannel opened
    let opened := if rest.isEmpty then opened else opened.lead .output (.kept [])
    set { opened with elapsed := start }
    try apart (runTrap run) (run c part) finally
      modify fun t => { t with streams := s.streams }
    let t ← get
    let bytes := t.written n
    set { swept (nextChannel s) t with elapsed := max s.elapsed t.elapsed }
    if !rest.isEmpty then runPipe run c start (some bytes) rest

/-- Whether the output and the errors still lead where they led, after a redirection. -/
def stillLead (held : Bool × Bool) : Redirection → Bool × Bool
  | .mk stream direction target =>
    let leads : Bool :=
      match direction, Word.bare? target with
      | .copy, some "1" => held.1
      | .copy, some "2" => held.2
      | _, _ => false
    if stream = Stream.output then (leads, held.2)
    else if stream = Stream.errors then (held.1, leads)
    else held

/-- Whether a command can write to what the session writes to. -/
def holdsStreams (body : Script) : Bool :=
  let held (ds : List Redirection) : Bool :=
    let (output, errors) := ds.foldl stillLead (true, true)
    output || errors
  match body with
  | .simple _ _ _ ds | .apart _ _ ds | .redirected _ _ ds => held ds
  | _ => true

/-- Runs a command whose end is not waited for. It has no input. -/
def runAside (run : Run) (body : Script) : Running Unit := do
  let s ← get
  let id := s.nextId
  let inside := { s.forked with nextId := id + 1 }.lead .input .nowhere
  let (result, t) := ((toEnd (runTrap run) (run .usual body)).run).run inside
  let left (status finish : Nat) : Running Unit :=
    set (swept (nextChannel s) { rejoin s t with
      elapsed := s.elapsed
      status := 0
      streams := s.streams
      lastJob := some id
      jobs := ⟨id, status, finish, holdsStreams body⟩ :: s.jobs })
  match result, s.limit with
  | .ok (), _ => left (t.status % 256) t.elapsed
  | .error (.killed signal), _ => left (128 + signal) t.elapsed
  | .error .overdue, some limit => left t.status (max t.elapsed limit)
  | .error stop, _ => throw stop

/-! ## Signals -/

/-- Runs what is set for the signals that have come, in the order of their numbers. The status stays
as it is, unless a function is left with another one; `fuel` bounds how many signals come. -/
def heed (run : Run) : Nat → Running Unit
  | 0 => throw .overdue
  | fuel + 1 => do
    let s ← get
    match if s.isInner then none else s.pending.min? with
    | none => return ()
    | some signal =>
      set { s with pending := s.pending.filter (· != signal), standing := some s.status }
      try
        match s.trap? signal with
        | some text => runTrap run text
        | none => pure ()
      catch
        | .returned chosen =>
          modify fun t => { t with standing := s.standing }
          if !chosen then finish s.status
          throw (.returned chosen)
        | .broken levels again =>
          modify fun t => { t with standing := s.standing, status := s.status }
          throw (.broken levels again)
        | stop => throw stop
      modify fun t => { t with standing := s.standing, status := s.status }
      heed run fuel

/-! ## Scripts -/

/-- Ends the session after a failure that nothing looks at, where it is to end then. -/
def stopAtFailure (c : Regard) (status : Nat) : Running Unit := do
  if status ≠ 0 && c == .usual && (← get).has 'e' then throw .left

/-- Runs a script; `run` runs the scripts in it. -/
def runParts (run : Run) (c : Regard) : Script → Running Unit
  | .simple line settings words redirections => runSimple run c line settings words redirections
  | .sequence parts => parts.forM (run c)
  | .both first second => do
    run .tested first
    if (← get).status = 0 then run c second
  | .either first second => do
    run .tested first
    if (← get).status ≠ 0 then run c second
  | .negation part => do
    run .tested part
    finish (if (← get).status = 0 then 1 else 0)
  | .pipe parts => do runPipe run c (← get).elapsed none parts
  | .choice test yes no => do
    run .tested test
    if (← get).status = 0 then run c yes
    else if no matches .sequence [] then finish 0
    else run c no
  | .loop untilTrue test body => runLoop run c untilTrue test body
  | .each line name words body => do
    modify fun s => { s with line }
    let fields ←
      match words with
      | some words => (runnerOf run).allFields words
      | none => pure (← get).arguments
    runEach run c name fields body
  | .selection line word arms => do
    modify fun s => { s with line }
    runArms run c (← (runnerOf run).text word) arms
  | .apart line body ds => do
    modify fun s => { s with line }
    runApart run c body ds
  | .aside line body => do
    modify fun s => { s with line }
    runAside run body
  | .redirected line body ds => do
    modify fun s => { s with line }
    (runnerOf run).redirected ds (run c body)
  | .define name body => do
    modify fun s => { s with functions := s.functions.insert name body }
    finish 0

/-- Whether a failure of a script itself may end the session. -/
def mayStop : Script → Bool
  | .simple _ _ _ _ | .pipe _ | .apart _ _ _ => true
  | _ => false

/-- How many signals are heeded between two commands. -/
def signalLimit : Nat := 1000

/-- Runs a script and what is set for signals behind it; `run` runs the scripts in it. -/
def step (run : Run) : Run := fun c body => do
  if (← get).has 'n' then return ()
  runParts run c body
  meetDoom
  let status := (← get).status
  if !(← get).pending.isEmpty then heed run signalLimit
  if mayStop body then stopAtFailure c status

/-- Runs a script in which commands stand in commands no deeper than a bound. -/
def runWithin : Nat → Run
  | 0 => fun _ _ => throw (.killed 11)
  | depth + 1 => step (runWithin depth)

/-- How deep commands may stand in commands. -/
def depthLimit : Nat := 10000

/-- Runs a script. -/
def run : Run := runWithin depthLimit

end CoverageRun.Shell
