/-
The configuration of runs: a section for each part of the work and limits of time. A file gives it
as JSON; what the file does not say stays as it is by default.
-/
import CoverageRun.Aggregation.Settings
import CoverageRun.Event.Rules
import CoverageRun.Failure
import CoverageRun.Files.Operations
import CoverageRun.Instrumentation.Settings
import CoverageRun.Toolchain.Needs
import CoverageRun.Upload.Settings

namespace CoverageRun

/-- Everything a run needs to know except the credential. -/
structure Config where
  trigger : StartRules
  toolchain : Toolchain.Needs
  instrumentation : Instrumentation.Settings
  aggregation : Aggregation.Settings
  publish : Upload.Settings
  /-- The seconds a command may take, zero for as long as it likes. -/
  stageTimeout : UInt64
  /-- The seconds a whole run may take. -/
  runTimeout : Option UInt64
  deriving DecidableEq, Repr, Inhabited

namespace Config

/-- The standard sections, half an hour for a command and no limit for a run. -/
def standard : Config :=
  ⟨.standard, .standard, .standard, .standard, .standard, 1800, none⟩

/-! ## Checks -/

/-- What can be wrong with a configuration. -/
inductive Fault where
  | trigger (cause : StartRules.Fault)
  | toolchain (cause : Toolchain.Needs.Fault)
  | instrumentation (cause : Instrumentation.Settings.Fault)
  | aggregation (cause : Aggregation.Settings.Fault)
  | noBaseUrl
  | noTime
  deriving DecidableEq, Repr

/-- The wording of a fault. -/
def Fault.message : Fault → String
  | .trigger cause => cause.message
  | .toolchain cause => cause.message
  | .instrumentation cause => cause.message
  | .aggregation cause => cause.message
  | .noBaseUrl => "publish base URL is empty"
  | .noTime => "run timeout must be positive"

/-- Checks the sections in order. -/
def validate (c : Config) : Except Fault Unit := do
  c.trigger.validate.mapError .trigger
  c.toolchain.validate.mapError .toolchain
  c.instrumentation.validate.mapError .instrumentation
  c.aggregation.validate.mapError .aggregation
  if Text.isBlankText c.publish.baseUrl then throw .noBaseUrl
  if c.runTimeout = some 0 then throw .noTime

/-! ## JSON -/

def toJson (c : Config) : Json.Value := .object [
  ("trigger", c.trigger.toJson),
  ("toolchain", c.toolchain.toJson),
  ("instrumentation", c.instrumentation.toJson),
  ("aggregation", c.aggregation.toJson),
  ("publish", c.publish.toJson),
  ("stage_timeout_secs", .word c.stageTimeout),
  ("run_timeout_secs", .optional .word c.runTimeout)]

def fields : List (Json.Field Config) := [
  .of "trigger" .fallback StartRules.ofJson fun c s => { c with trigger := s },
  .of "toolchain" .fallback Toolchain.Needs.ofJson fun c s => { c with toolchain := s },
  .of "instrumentation" .fallback Instrumentation.Settings.ofJson fun c s =>
    { c with instrumentation := s },
  .of "aggregation" .fallback Aggregation.Settings.ofJson fun c s => { c with aggregation := s },
  .of "publish" .fallback Upload.Settings.ofJson fun c s => { c with publish := s },
  .of "stage_timeout_secs" .fallback (·.readWord) fun c n => { c with stageTimeout := n },
  .of "run_timeout_secs" .fallback (·.readOptional (·.readWord)) fun c n =>
    { c with runTimeout := n }]

def ofJson : Json.Node → Json.Reading Config := Json.Node.readRecord fields standard

/-! ## Files -/

/-- The configuration a text gives, checked. -/
def ofText (text : String) : Except Failure Config := do
  let c ← (Json.readDocument ofJson text).mapError .json
  c.validate.mapError fun f => .config f.message
  return c

/-- The configuration a file gives, checked. -/
def load (t : Files.Tree) (path : Path) : Except Failure Config :=
  match t.readText path with
  | .error e => .error (.config s!"cannot read {path.text}: {e.message}")
  | .ok text => ofText text

end Config

end CoverageRun
