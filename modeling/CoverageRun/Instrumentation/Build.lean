/-
Building and testing with instrumentation: what an earlier run left is cleared away first, and the
profiles that the tests write are collected afterwards.
-/
import CoverageRun.Aggregation.Outputs
import CoverageRun.Host
import CoverageRun.Instrumentation.Settings
import CoverageRun.Profile.Collection

namespace CoverageRun.Instrumentation

/-- A build: its settings, where it runs, the channel it is pinned to and the seconds each command
may take. -/
structure Build where
  settings : Settings
  directory : Path
  channel : Option String
  timeout : UInt64
  deriving Repr

namespace Build

variable {σ : Type}

/-- The variables the commands run with. -/
def environment (b : Build) : Store.OrderedMap String String :=
  .ofList (b.settings.environment b.channel)

/-- A command of the build program. -/
def command (b : Build) (name subcommand : String) (args : List String) : Command :=
  ((Command.make name ("cargo" :: subcommand :: args) b.timeout).inDirectory b.directory)
    |>.withVariables b.environment.entries

/-- Removes the profiles and the report of an earlier run. -/
def prepare (b : Build) (report : Path) : Action σ Unit := do
  Action.ofExcept (fun f => .config f.message) b.settings.validate
  let (_, t) := Profile.removeAll (← Action.tree) b.directory
  Action.setTree (Aggregation.discardOutputs t (Aggregation.resolve b.directory report))

/-- The reason a command of the build program did not pass. -/
def complaint (subcommand : String) (out : Completion) : String :=
  s!"cargo {subcommand} exited with code {Numeral.writeInt out.exitCode}: {out.stderrTail 20}"

/-- Builds the project. -/
def build (h : Host σ) (b : Build) : Action σ Completion := do
  let out ← Action.issue h (b.command "cargo_build" "build" b.settings.buildArgs)
  if out.passed then return out else Action.fail (.build (complaint "build" out))

/-- Tests the project and collects the profiles. -/
def test (h : Host σ) (b : Build) : Action σ Profile.Collection := do
  let out ← Action.issue h (b.command "cargo_test" "test" b.settings.testArgs)
  if out.passed then return Profile.collect (← Action.tree) b.directory
  else Action.fail (.tests (complaint "test" out))

end Build

end CoverageRun.Instrumentation
