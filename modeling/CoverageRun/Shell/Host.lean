/-
Commands run on the tree itself: programs are the scripts that stand in it, and those that are
always there. Time passes only where a program sleeps, so a command that takes too long is known at
once. What is said of runs is said of every host, and this is one of them: with it a whole run, the
programs it calls included, can be carried out on a tree.
-/
import CoverageRun.Host
import CoverageRun.Shell.Run

namespace CoverageRun.Shell

open Files Store

/-! ## Starting -/

/-- Whether a command can be handed to a program at all: no part of it holds a NUL. -/
def hasNul (c : Command) : Bool :=
  let holds (s : String) : Bool := s.toList.contains '\x00'
  c.words.any holds || c.environment.entries.any (fun v => holds v.1 || holds v.2) ||
    (c.directory.map fun p => holds p.text).getD false

/-- The tree as seen from the directory of a command. -/
def enter (t : Tree) (dir : Option Path) : Except Fault Tree :=
  match dir with
  | none => .ok t
  | some p =>
    match t.find true p with
    | .ok (loc, .directory) => .ok { t with home := loc }
    | .ok _ => .error .notDirectory
    | .error f => .error f

/-- Variables, by their names. -/
abbrev Environment := OrderedMap String String

/-- The variables a command sees, its own before those of its caller. -/
def environmentOf (environment : Environment) (c : Command) : Environment :=
  c.environment.entries.foldl (fun m v => m.insert v.1 v.2) environment

/-- Variables as a program finds them: the name of each ends at the first equality sign. -/
def asFound (environment : Environment) : List (String × String) :=
  environment.entries.map fun v =>
    let (name, value) := settingOf (v.1 ++ "=" ++ v.2)
    (name, value.getD "")

/-- What is there besides a tree: the directories of a system, and in two of them the programs that
run others. -/
def systemEntries : List (Location × Entry) :=
  let directories := [["bin"], ["dev"], ["etc"], ["root"], ["tmp"], ["usr"], ["usr", "bin"],
    ["usr", "local"], ["usr", "local", "bin"], ["var"]]
  let programs := [["bin"], ["usr", "bin"]].flatMap fun dir =>
    (shellNames ++ carrierNames).map fun name => dir ++ [name]
  directories.map (·, .directory) ++ programs.map (·, .file [] true)

/-- A tree with what is there besides it. -/
def furnish (t : Tree) : Tree :=
  systemEntries.foldl (fun t e => if (t.entry? e.1).isSome then t else t.put e.1 e.2) t

/-- A tree without what was there besides the tree it comes from, where that is still the same and
holds nothing else. -/
def clear (before after : Tree) : Tree :=
  let removed := systemEntries.reverse.foldl (fun t e =>
    let isOurs := (before.entry? e.1).isNone && t.entry? e.1 == some e.2
    if isOurs && (t.children e.1).isEmpty then t.erase e.1 else t) after
  { removed with home := before.home }

/-- A session in which a command begins, with the program it runs. -/
def begin? (environment : Environment) (limit : Option Nat) (word : String)
    (c : Command) (t : Tree) : Except Failure (Found × Session) := do
  if hasNul c then throw (.io "nul byte found in provided data")
  let inside ← (enter (furnish t) c.directory).mapError Failure.ofFiles
  let seen := environmentOf environment c
  let found ← (findProgram inside ((seen.get? "PATH").getD usualPath) word).mapError
    Failure.ofFiles
  match found with
  | .script _ bytes =>
    match interpreter? bytes with
    | some words =>
      let _ ← (programAt inside (words.headD "")).mapError Failure.ofFiles
    | none => throw (.io "Exec format error (os error 8)")
  | .stock _ => pure ()
  return (found, .start inside (asFound seen) limit)

/-! ## Ending -/

/-- The time a command may take, in thousandths of a second. -/
def allowance (c : Command) : Option Nat :=
  if c.timeout = 0 then none else some (1000 * c.timeout.toNat)

/-- The shorter of two times, where there are any. -/
def shorter (a b : Option Nat) : Option Nat :=
  match a, b with
  | some a, some b => some (min a b)
  | some a, none => some a
  | none, b => b

/-- What a command comes to that takes too long: it has failed, unless all time is up before. -/
def overdueAnswer (c : Command) (limit : Option Nat) : Answer Completion :=
  match allowance c with
  | some time =>
    if (limit.map fun l => decide (time ≤ l)).getD true then
      .failed (.timeout s!"command `{c.line}`" c.timeout)
    else .unending
  | none => .unending

/-- Runs a program to its end, and to that of all it leaves behind that can still write to its
streams: why it stopped, if something stopped it. -/
def complete (word : String) (found : Found) (args : List String) (s : Session) :
    Except Stop Unit × Session :=
  let (result, s) := ((runFound run programDepth word found args).run).run s
  let s := { s with elapsed := max s.elapsed s.isHeldUntil }
  match result with
  | .error stop => (.error stop, s)
  | .ok () => (if s.isOverdue then .error .overdue else .ok (), s)

/-- What a command comes to. A signal that ends it leaves no exit code. -/
def answerOf (c : Command) (limit : Option Nat) (result : Except Stop Unit) (s : Session) :
    Answer Completion :=
  let exitCode : Int :=
    match result with
    | .error (.killed _) => -1
    | _ => s.status
  match result with
  | .error .overdue => overdueAnswer c limit
  | _ =>
    .completed ⟨c.name, exitCode, Text.lossy (s.written Stream.output),
      Text.lossy (s.written Stream.errors), exitCode == 0⟩

/-- Runs a command, with the time left for it: what it comes to, the tree and the time it has
taken. -/
def execute (environment : Environment) (limit : Option Nat) (c : Command) (t : Tree) :
    Answer Completion × Tree × Nat :=
  match c.words with
  | [] => (.failed (.config s!"command {c.name} is empty"), t, 0)
  | word :: args =>
    match begin? environment (shorter (allowance c) limit) word c t with
    | .error f => (.failed f, t, 0)
    | .ok (found, s) =>
      let (result, s) := complete word found args s
      (answerOf c limit result s, clear t s.tree, s.elapsed)

/-! ## Version control -/

/-- Asks the version control program: its output, if it passes. -/
def askGit (environment : Environment) (dir : Path) (t : Tree) (args : List String) :
    Option (List UInt8) × Tree :=
  let question := (Command.make "git" ("git" :: args) 0).inDirectory dir
  match begin? environment none "git" question t with
  | .error _ => (none, t)
  | .ok (found, s) =>
    let (result, s) := complete "git" found args s
    let answer := if result.isOk ∧ s.status = 0 then some (s.written Stream.output) else none
    (answer, clear t s.tree)

/-- The origin that variables give, or else the version control program, and the tree after it was
asked. -/
def detect (environment : Environment) (dir : Path) (fresh : String) (t : Tree) :
    Origin × Tree :=
  match Origin.ofVariables? environment.get? fresh with
  | some c => (c, t)
  | none =>
    let (commit, t) := askGit environment dir t Origin.commitQuestion
    let (branch, t) := askGit environment dir t Origin.branchQuestion
    (Origin.detect environment.get?
      (fun args => if args = Origin.commitQuestion then commit else branch) fresh, t)

/-! ## Hosts -/

/-- What a host that runs commands on the tree knows: the time left, if it is bounded, and the state
of what carries its uploads. -/
structure Site (τ : Type) where
  remaining : Option Nat
  transport : τ
  deriving Repr

/-- The host that runs commands on the tree, with a way to publish. -/
def host {τ : Type} (environment : Environment)
    (publish : Coverage.Report → Credential → Origin → τ → Answer Upload.Receipt × τ) :
    Host (Site τ) where
  run c t s :=
    let (answer, t, time) := execute environment s.remaining c t
    (answer, t, { s with remaining := s.remaining.map (· - time) })
  publish report credential origin s :=
    let (answer, transport) := publish report credential origin s.transport
    (answer, { s with transport })

end CoverageRun.Shell
