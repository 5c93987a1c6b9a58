/-
What a run leaves: a record of each stage that ran, the end it came to, and what it produced.
-/
import CoverageRun.Coverage.Report
import CoverageRun.Event.Rules
import CoverageRun.Run.Stage
import CoverageRun.Upload.Settings

namespace CoverageRun.Run

/-! ## Parts -/

/-- What happened in a stage. -/
structure StageRecord where
  stage : Stage
  /-- The commands issued in the stage, in order. -/
  commands : List String
  /-- The message of the failure that ended the stage, if one did. -/
  error : Option String
  deriving DecidableEq, Repr, Inhabited

/-- Whether a stage passed. -/
def StageRecord.success (r : StageRecord) : Bool := r.error.isNone

/-- The failure that ended a run, and the stage it ended in. -/
structure Ending where
  stage : Option Stage
  message : String
  exitCode : Int
  deriving DecidableEq, Repr, Inhabited

/-- A report that was written: where, the digest of its octets, and its totals. -/
structure Written where
  path : Path
  digest : String
  summary : Coverage.Summary
  deriving DecidableEq, Repr, Inhabited

/-! ## Results -/

/-- What a run leaves. -/
structure Result where
  runId : String
  event : Event
  phase : Phase
  stages : List StageRecord
  report : Option Written
  receipt : Option Upload.Receipt
  failure : Option Ending
  deriving DecidableEq, Repr, Inhabited

namespace Result

def succeeded (r : Result) : Bool := r.phase == .succeeded

def skipped (r : Result) : Bool := r.phase == .skipped

/-- The exit code of a program for a result. -/
def exitCode (r : Result) : Int :=
  match r.phase with
  | .succeeded | .skipped => 0
  | _ =>
    match r.failure with
    | some f => f.exitCode
    | none => 1

/-- The number of stages that passed. -/
def passedCount (r : Result) : Nat := (r.stages.filter StageRecord.success).length

/-- The number of stages that failed. -/
def failedCount (r : Result) : Nat := (r.stages.filter fun s => !s.success).length

end Result

/-! ## JSON -/

def StageRecord.toJson (r : StageRecord) : Json.Value := .object [
  ("stage", r.stage.toJson),
  ("commands", .texts r.commands),
  ("success", .bool r.success),
  ("error", .optional .text r.error)]

def Ending.toJson (f : Ending) : Json.Value := .object [
  ("stage", .optional Stage.toJson f.stage),
  ("message", .text f.message),
  ("exit_code", .integer f.exitCode)]

def countMembers (c : Coverage.Counts) : List (String × Json.Value) := [
  ("lines_found", .nat c.linesFound),
  ("lines_hit", .nat c.linesHit),
  ("branches_found", .nat c.branchesFound),
  ("branches_hit", .nat c.branchesHit),
  ("functions_found", .nat c.functionsFound),
  ("functions_hit", .nat c.functionsHit)]

def summaryJson (s : Coverage.Summary) : Json.Value := .object [
  ("files", .array (s.files.map fun f => .object (("path", .text f.1.text) :: countMembers f.2))),
  ("total", .object (countMembers s.total))]

/-- A result as JSON, without the times of the run. -/
def Result.toJson (r : Result) : Json.Value := .object [
  ("run_id", .text r.runId),
  ("event", r.event.toJson),
  ("final_state", r.phase.toJson),
  ("stages", .array (r.stages.map StageRecord.toJson)),
  ("report_path", .optional (fun w => .text w.path.text) r.report),
  ("report_digest", .optional (fun w => .text w.digest) r.report),
  ("summary", .optional (fun w => summaryJson w.summary) r.report),
  ("receipt", .optional Upload.Receipt.toJson r.receipt),
  ("failure", .optional Ending.toJson r.failure)]

end CoverageRun.Run
