/-
Runs: an event is looked at, and if it matters the five stages follow one another until one fails.
Every end is written down; a run has no other outcome, except that it may not come to an end where
the host or the file tree does not and no limit is set.
-/
import CoverageRun.Aggregation.Aggregate
import CoverageRun.Instrumentation.Build
import CoverageRun.Run.Config
import CoverageRun.Run.Result
import CoverageRun.Toolchain.Provision

namespace CoverageRun.Run

/-! ## Progress -/

/-- How far a run has come. -/
structure Progress where
  phase : Phase
  /-- How many commands had been issued when the present stage began. -/
  begun : Nat
  records : List StageRecord
  report : Option Written
  receipt : Option Upload.Receipt
  failure : Option Ending
  deriving Repr, Inhabited

namespace Progress

/-- A run that has not begun. -/
def idle : Progress := ⟨.idle, 0, [], none, none, none⟩

/-- The run after its stage has passed. -/
def pass (p : Progress) (commands : List String) : Progress :=
  match p.phase.stage? with
  | none => p
  | some stage =>
    { p with
      phase := p.phase.advance .succeeded
      records := p.records ++ [⟨stage, commands, none⟩] }

/-- The run ended by a failure, in its stage if it is in one. -/
def fail (p : Progress) (commands : List String) (f : Failure) : Progress :=
  { p with
    phase := p.phase.advance .failed
    records :=
      match p.phase.stage? with
      | none => p.records
      | some stage => p.records ++ [⟨stage, commands, some f.message⟩]
    failure := some ⟨p.phase.stage?, f.message, f.exitCode⟩ }

/-- What the run leaves as it stands. -/
def result (p : Progress) (event : Event) (origin : Origin) : Result :=
  ⟨origin.runId, event, p.phase, p.records, p.report, p.receipt, p.failure⟩

end Progress

/-- Work on a run: it changes the world and brings the run forward. -/
abbrev Work (σ : Type) := ExceptT Halt (StateM (World σ × Progress))

variable {σ : Type}

/-- The lines of the commands issued after the first `count`. -/
def linesSince (w : World σ) (count : Nat) : List String := (w.issued.drop count).map Command.line

/-- Does the work of the present stage and writes down how it ended. Work that is cut off leaves the
stage open. -/
def stage {α : Type} (work : Action σ α) : Work σ α := do
  let (w, p) ← get
  let begun := w.issued.length
  let (outcome, w) := StateT.run (ExceptT.run work) w
  match outcome with
  | .ok a =>
    set (w, { p with begun }.pass (linesSince w begun))
    return a
  | .error (.failure f) =>
    set (w, { p with begun }.fail (linesSince w begun) f)
    throw (.failure f)
  | .error halt =>
    set (w, { p with begun })
    throw halt

/-! ## Pipelines -/

/-- A configuration that passes its checks, and the directory that runs work in. -/
structure Pipeline where
  config : Config
  directory : Path
  valid : config.validate = .ok ()

namespace Pipeline

/-- A pipeline, if the configuration passes its checks. -/
def make (config : Config) (directory : Path) : Except Failure Pipeline :=
  match h : config.validate with
  | .ok () => .ok ⟨config, directory, h⟩
  | .error f => .error (.config f.message)

/-- The build of a run. -/
def build (p : Pipeline) : Instrumentation.Build :=
  ⟨p.config.instrumentation, p.directory, some p.config.toolchain.channel, p.config.stageTimeout⟩

/-- The aggregation of a run. -/
def aggregation (p : Pipeline) : Aggregation.Task :=
  ⟨p.config.aggregation, p.config.toolchain.tool, p.directory, some p.config.toolchain.channel,
    p.config.stageTimeout⟩

/-- The result of an event that no rule lets start a run. -/
def skipped? (p : Pipeline) (event : Event) (origin : Origin) : Option Result :=
  if p.config.trigger.starts event then none
  else some ({ Progress.idle with phase := Phase.idle.skip }.result event origin)

/-- The five stages. -/
def drive (h : Host σ) (p : Pipeline) (origin : Origin) (credential : Credential) :
    Work σ Unit := do
  let _ ← stage (Toolchain.provision h ⟨p.directory, p.config.stageTimeout⟩ p.config.toolchain)
  stage do
    p.build.prepare p.config.aggregation.reportPath
    let _ ← p.build.build h
  let profiles ← stage (p.build.test h)
  let report ← stage (p.aggregation.aggregate h profiles)
  modify fun (w, run) =>
    (w, { run with report := some ⟨p.aggregation.reportPath, report.digest, report.summary⟩ })
  let receipt ← stage (Action.upload h report credential origin)
  modify fun (w, run) => (w, { run with receipt := some receipt })

/-- The failure of a run whose time is up. -/
def outOfTime (seconds : UInt64) : Failure := .timeout "pipeline run" seconds

/-- Ends a run whose time is up in its present stage. What there is of a report being made is removed;
a file operation on it may still be under way. -/
def cutOff (p : Pipeline) (seconds : UInt64) (late : Option Late) (w : World σ) (run : Progress) :
    World σ × Progress :=
  let w :=
    if run.phase = .aggregating then
      { w with tree := Aggregation.discardAmid w.tree p.aggregation.reportPath late }
    else w
  (w, run.fail (linesSince w run.begun) (outOfTime seconds))

/-- A run: its result and the world after it. It has no result where something never ends and no time
is set, or where counts overflow. -/
def run (h : Host σ) (p : Pipeline) (event : Event) (origin : Origin)
    (credential : Credential) (w : World σ) : Except Halt Result × World σ :=
  match p.skipped? event origin with
  | some result => (.ok result, w)
  | none =>
    let start := { Progress.idle with phase := Phase.idle.advance .succeeded }
    let (outcome, w, run) := StateT.run (ExceptT.run (p.drive h origin credential)) (w, start)
    match outcome with
    | .error .overflow => (.error .overflow, w)
    | .error (.unending late) =>
      match p.config.runTimeout with
      | none => (.error (.unending late), w)
      | some seconds =>
        let (w, run) := p.cutOff seconds late w run
        (.ok (run.result event origin), w)
    | _ => (.ok (run.result event origin), w)

end Pipeline

end CoverageRun.Run
