/-
What the shell does itself by name, but for what runs further commands.
-/
import CoverageRun.Shell.Builtins.Places
import CoverageRun.Shell.Builtins.Signals

namespace CoverageRun.Shell

open Running

/-! ## Leaving -/

/-- Ends the session. What runs for a signal ends it with the status from before. -/
def exit : Builtin := fun args => do
  let s ← get
  match args with
  | text :: _ => finish (← countOf text)
  | [] => finish (s.standing.getD s.status)
  throw .left

/-- Returns from a function or script. -/
def leaveFunction : Builtin := fun args => do
  match args with
  | text :: _ => finish (← countOf text)
  | [] => pure ()
  throw (.returned (!args.isEmpty))

/-- Leaves loops, or begins their next turn. Outside of loops it does nothing. -/
def leaveLoops (again : Bool) : Builtin := fun args => do
  let n ← (args.head?.map countOf).getD (pure 1)
  if n = 0 then fail "Illegal number: 0"
  finish 0
  let loops := (← get).loops
  if loops ≠ 0 then throw (.broken (min n loops) again)

/-! ## All names -/

/-- What a program does, as something the shell does itself. -/
def ofProgram (p : Program) : Builtin := fun args => modify (p args)

/-- Fails as there is no job to be moved. -/
def moveJob : Builtin := fun args => do
  match args with
  | [] => fail "No current job"
  | job :: _ => fail s!"No such job: {job}"

/-- Lists the commands whose end is not waited for. -/
def listJobs : Builtin := fun _ => finish 0

/-- What the shell does itself by a name, without running anything else. -/
def builtin? (name : String) : Option Builtin :=
  match name with
  | ":" | "true" => some fun _ => finish 0
  | "false" => some fun _ => finish 1
  | "exit" => some exit
  | "return" => some leaveFunction
  | "break" => some (leaveLoops false)
  | "continue" => some (leaveLoops true)
  | "shift" => some shift
  | "set" => some setCommand
  | "export" => some (declare "export" (·.exported) Session.expose)
  | "readonly" => some (declare "readonly" (·.fixed) Session.fix)
  | "local" => some declareOwn
  | "unset" => some unset
  | "getopts" => some getopts
  | "read" => some readLine
  | "cd" | "chdir" => some changeDirectory
  | "pwd" => some printDirectory
  | "umask" => some umask
  | "ulimit" => some ulimit
  | "type" => some typeOf
  | "hash" => some hash
  | "alias" => some aliasCommand
  | "unalias" => some unalias
  | "kill" => some kill
  | "trap" => some setTraps
  | "wait" => some wait
  | "jobs" => some listJobs
  | "fg" | "bg" => some moveJob
  | "times" => some fun _ => do
    modify fun s => s.say "0m0.00s 0m0.00s\n0m0.00s 0m0.00s\n"
    finish 0
  | "echo" => some (ofProgram shellEcho)
  | "printf" => some fun args => do
    let (_, args) ← optionsOf "" "" args
    modify (printFilled args)
  | "test" => some (ofProgram test)
  | "[" => some (ofProgram bracket)
  | _ => none

end CoverageRun.Shell
