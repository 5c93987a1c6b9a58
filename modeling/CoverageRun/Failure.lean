/-
What can end a run: the causes, their wording and the exit code each one gives the program.
-/
import CoverageRun.Coverage.Tracefile
import CoverageRun.Files.Resolve
import CoverageRun.Json.Node

namespace CoverageRun

/-! ## Aggregation -/

/-- Why profiles cannot be turned into a report. -/
inductive AggregationFailure where
  | noProfiles (root : Path)
  | missingBinaries (path : Path)
  | toolFailed (tool : String) (exitCode : Int) (stderr : String)
  | malformed (line : Nat) (reason : String)
  | invalidGlob (pattern reason : String)
  deriving DecidableEq, Repr

/-- The wording of a failed aggregation. -/
def AggregationFailure.message : AggregationFailure → String
  | .noProfiles root => s!"no profiling artifacts found under {root.text}"
  | .missingBinaries path => s!"build binary path does not exist: {path.text}"
  | .toolFailed tool exitCode stderr =>
    s!"{tool} exited with code {Numeral.writeInt exitCode}: {stderr}"
  | .malformed line reason => s!"malformed LCOV at line {line}: {reason}"
  | .invalidGlob pattern reason => s!"invalid exclusion glob `{pattern}`: {reason}"

/-! ## Failures -/

/-- What can end a run. -/
inductive Failure where
  | provisioning (reason : String)
  | build (reason : String)
  | tests (reason : String)
  | aggregation (cause : AggregationFailure)
  | publish (reason : String)
  | config (reason : String)
  | timeout (what : String) (seconds : UInt64)
  | io (reason : String)
  | json (cause : Json.Cause)
  deriving DecidableEq, Repr

namespace Failure

/-- The wording of a failure. -/
def message : Failure → String
  | .provisioning reason => s!"provisioning failed: {reason}"
  | .build reason => s!"build failed: {reason}"
  | .tests reason => s!"tests failed: {reason}"
  | .aggregation cause => s!"aggregation failed: {cause.message}"
  | .publish reason => s!"publish failed: {reason}"
  | .config reason => s!"invalid configuration: {reason}"
  | .timeout what seconds => s!"{what} timed out after {seconds.toNat} seconds"
  | .io reason => s!"IO error: {reason}"
  | .json _ => "JSON error:"

/-- The exit code of a program that a failure ends. -/
def exitCode : Failure → Int
  | .provisioning _ => 10
  | .build _ => 20
  | .tests _ => 30
  | .aggregation _ => 40
  | .publish _ => 50
  | .config _ => 2
  | .timeout _ _ | .io _ | .json _ => 1

/-- The failure of a file operation. -/
def ofFiles (f : Files.Fault) : Failure := .io f.message

end Failure

end CoverageRun
