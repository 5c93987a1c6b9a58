/-
Aggregation: profiles become a report. The coverage tool writes its output beside the report; what
the exclusions leave of it is staged and then takes the name of the report, so that under that name
there is never part of a report.
-/
import CoverageRun.Aggregation.Outputs
import CoverageRun.Aggregation.Settings
import CoverageRun.Coverage.Exclusions
import CoverageRun.Coverage.Tracefile
import CoverageRun.Host
import CoverageRun.Profile.Collection

namespace CoverageRun.Aggregation

open Files

/-- An aggregation: its settings, the coverage tool, where it runs, the channel it is pinned to and
the seconds the tool may take. -/
structure Task where
  settings : Settings
  tool : String
  directory : Path
  channel : Option String
  timeout : UInt64
  deriving Repr

variable {σ : Type}

/-- A failed aggregation. -/
def fail {α : Type} (f : AggregationFailure) : Action σ α := Action.fail (.aggregation f)

/-- The report that a tracefile holds. -/
def parse (text : String) : Action σ Coverage.Report :=
  match Coverage.Report.parse text with
  | .ok r => pure r
  | .error (.malformed line fault) => fail (.malformed line fault.text)
  | .error .overflow => throw .overflow

namespace Task

/-- Where the report goes. -/
def reportPath (a : Task) : Path := resolve a.directory a.settings.reportPath

/-- The call of the coverage tool for profiles below `root`. -/
def command (a : Task) (root : Path) : Command :=
  let s := a.settings
  let words :=
    [a.tool, root.text, "--binary-path", s.binaryPath.text, "-s", s.sourceRoot.text, "-t",
        s.outputFormat] ++
      (if s.branch then ["--branch"] else []) ++
      (if s.ignoreNotExisting then ["--ignore-not-existing"] else []) ++
      s.excludes.flatMap (fun pattern => ["--ignore", pattern]) ++
      ["-o", (rawPath s.reportPath).text]
  ((Command.make "aggregate" words a.timeout).inDirectory a.directory).withVariables
    (a.channel.toList.map fun c => ("RUSTUP_TOOLCHAIN", c))

/-- The raw output of the coverage tool, which passed with this exit code. -/
def readRaw (h : Host σ) (a : Task) (exitCode : Int) : Action σ String := do
  let raw := rawPath a.reportPath
  Action.await h (.read raw)
  match (← Action.tree).readText raw with
  | .ok s => return s
  | .error .missing => fail (.toolFailed a.tool exitCode s!"no report written to {raw.text}")
  | .error e => Action.fail (.ofFiles e)

/-- Runs the coverage tool and writes the report. -/
def collect (h : Host σ) (a : Task) (profiles : Profile.Collection)
    (exclusions : Coverage.Exclusions) : Action σ Coverage.Report := do
  let out ← Action.issue h (a.command profiles.root)
  if !out.passed then fail (.toolFailed a.tool out.exitCode (out.stderrTail 10))
  let report ← parse (← a.readRaw h out.exitCode)
  let report := report.retain fun p => !exclusions.excludes p
  let staged := stagedPath a.reportPath
  Action.perform h (.write staged report.octets)
  Action.perform h (.rename staged a.reportPath)
  return report

/-- The exclusions of a task. -/
def exclusions (h : Host σ) (a : Task) : Action σ Coverage.Exclusions := do
  let root := resolve a.directory a.settings.sourceRoot
  Action.ofExcept
    (fun f => .aggregation (.invalidGlob f.pattern (f.cause.message f.pattern)))
    (Coverage.Exclusions.make (← Action.tree) root a.settings.excludes h.refuses)

/-- Turns profiles into a report on disk. When the tool was run and the report cannot be made,
nothing of it is left. -/
def aggregate (h : Host σ) (a : Task) (profiles : Profile.Collection) :
    Action σ Coverage.Report := do
  Action.ofExcept (fun f => .config f.message) a.settings.validate
  if profiles.artifacts.isEmpty then fail (.noProfiles profiles.root)
  let binaries := resolve a.directory a.settings.binaryPath
  if !(← Action.tree).isPresent binaries then fail (.missingBinaries binaries)
  let exclusions ← a.exclusions h
  tryCatch
    (do
      let report ← a.collect h profiles exclusions
      Action.setTree ((← Action.tree).discard (rawPath a.reportPath))
      return report)
    fun halt => do
      if let .failure _ := halt then
        Action.setTree (discardOutputs (← Action.tree) a.reportPath)
      throw halt

end Task

/-- Removes what there is of a report, where a file operation on it may still be under way. -/
def discardAmid (t : Tree) (report : Path) : Option Late → Tree
  | some ⟨op, .after n⟩ => discardAround t report n op.land
  | _ => discardOutputs t report

end CoverageRun.Aggregation
