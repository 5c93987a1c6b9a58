/-
The program: it does what it is asked to do, prints what came of it and ends with an exit code. A
failure is printed with all that led to it, and gives the code of its kind.
-/
import CoverageRun.CommandLine.Request
import CoverageRun.Run.Pipeline
import CoverageRun.Shell.Host
import CoverageRun.Upload.Protocol

namespace CoverageRun.CommandLine

open Files

/-! ## Troubles -/

/-- What the program cannot go on after: a failure or a fault of a file, and what was being done,
the innermost first. -/
structure Trouble where
  cause : Failure ⊕ Fault
  purposes : List String
  deriving Repr

/-- A failure followed by its own cause, where it has one. -/
def failureTexts : Failure → List String
  | .aggregation cause => [(Failure.aggregation cause).message, cause.message]
  | .io reason => [(Failure.io reason).message, reason]
  | f => [f.message]

namespace Trouble

/-- The message of a trouble. -/
def text (t : Trouble) : String :=
  Text.joinText ": " (t.purposes.reverse ++
    match t.cause with
    | .inl f => failureTexts f
    | .inr f => [f.message])

/-- The exit code of a trouble. -/
def exitCode (t : Trouble) : Int :=
  match t.cause with
  | .inl f => f.exitCode
  | .inr _ => 1

end Trouble

/-! ## Jobs -/

/-- Why a job stops before its end. -/
inductive Stop where
  | trouble (t : Trouble)
  /-- Two counts do not fit into 64 bits together. -/
  | overflow
  /-- A program that was started never ends. -/
  | unending
  deriving Repr

/-- What a job works with: the world, and what it has printed. -/
structure Desk (τ : Type) where
  world : World (Shell.Site τ)
  printed : String

/-- A job of the program. -/
abbrev Job (τ : Type) := ExceptT Stop (StateM (Desk τ))

variable {τ : Type}

namespace Job

/-- Prints a line. -/
def say (line : String) : Job τ Unit :=
  modify fun d => { d with printed := d.printed ++ line ++ "\n" }

/-- Stops because of a failure. -/
def fail {α : Type} (f : Failure) : Job τ α := throw (.trouble ⟨.inl f, []⟩)

/-- Goes on with a value, or stops because of the failure in its place. -/
def ofExcept {α : Type} : Except Failure α → Job τ α
  | .ok a => pure a
  | .error f => fail f

/-- Says what a job is for, should it stop because of a trouble. -/
def within {α : Type} (purpose : String) (job : Job τ α) : Job τ α :=
  tryCatch job fun
    | .trouble t => throw (.trouble { t with purposes := t.purposes ++ [purpose] })
    | stop => throw stop

/-- Does work on the world. -/
def perform {α : Type} (work : Action (Shell.Site τ) α) : Job τ α := do
  let d ← get
  let (outcome, world) := StateT.run (ExceptT.run work) d.world
  set { d with world }
  match outcome with
  | .ok a => return a
  | .error (.failure f) => fail f
  | .error .overflow => throw .overflow
  | .error (.unending _) => throw .unending

/-- The file tree as it is now. -/
def tree : Job τ Tree := do return (← get).world.tree

/-- Changes the file tree, or stops because of a fault. -/
def changeFiles (change : Tree → Except Fault Tree) : Job τ Unit := do
  let d ← get
  match change d.world.tree with
  | .ok tree => set { d with world := { d.world with tree } }
  | .error f => throw (.trouble ⟨.inr f, []⟩)

end Job

/-! ## Configurations -/

/-- The configuration with options in place of what it says. -/
def Overrides.apply (o : Overrides) (c : Config) : Config :=
  { c with
    toolchain := { c.toolchain with channel := o.channel.getD c.toolchain.channel }
    aggregation :=
      { c.aggregation with
        excludes := if o.excludes = [] then c.aggregation.excludes else o.excludes
        reportPath := (o.report.map Path.mk).getD c.aggregation.reportPath }
    stageTimeout := o.stageTimeout.getD c.stageTimeout }

/-- The configuration with options of an upload in place of what it says. -/
def UploadOptions.apply (o : UploadOptions) (c : Config) : Config :=
  { c with
    publish :=
      { c.publish with
        baseUrl := o.baseUrl.getD c.publish.baseUrl
        flags := if o.flags = [] then c.publish.flags else o.flags } }

def Overrides.none : Overrides := ⟨.none, [], .none, .none⟩

/-- The standard configuration, or that of a file, with options before it; it is checked in the
end. -/
def loadConfig (path : Option Path) (o : Overrides) : Job τ Config := do
  let config ←
    match path with
    | some p =>
      Job.within s!"Failed to load config {p.text}" (Job.ofExcept (Config.load (← Job.tree) p))
    | .none => pure .standard
  let config := o.apply config
  Job.within "Invalid configuration after applying flags"
    (Job.ofExcept (config.validate.mapError fun f => .config f.message))
  return config

/-! ## Printing -/

/-- The time that work on a tree takes, which is none. -/
def time : String := "0ms"

/-- The line of a stage that ran. -/
def stageLine (r : Run.StageRecord) : String :=
  let sign := if r.success then "✓" else "✗"
  s!"  {sign} {r.stage.name} ({time})"

/-- How a run ended. -/
def endingLine : Option Run.Ending → String
  | some f =>
    let place := (f.stage.map Stage.name).getD "run"
    s!"✗ Failed in {place}: {f.message}"
  | none => "✓ Coverage published"

/-- The lines that tell of a result. -/
def resultLines (r : Run.Result) : List String :=
  [s!"Run ID: {r.runId}", s!"Status: {r.phase.name}", s!"Duration: {time}", ""] ++
    if r.skipped then ["No trigger rule matched; nothing to do."]
    else
      r.stages.map stageLine ++ [""] ++
        (r.report.toList.flatMap fun w =>
          [w.summary.table, "", s!"Report digest: {w.digest}"]) ++
        ((r.receipt.bind (·.reportUrl)).toList.map fun url => s!"Report URL: {url}") ++
        [endingLine r.failure]

/-! ## Parts of jobs -/

/-- What the program is given from outside: its environment, a name for a run that has none, and
what carries uploads. -/
structure Outside (τ : Type) where
  environment : Shell.Environment
  fresh : String
  transport : Upload.Transport τ

namespace Outside

/-- A way to publish with settings, as a host has it. -/
def publisher (o : Outside τ) (s : Upload.Settings) (report : Coverage.Report)
    (credential : Credential) (origin : Origin) (state : τ) : Answer Upload.Receipt × τ :=
  match Upload.publish o.transport s report credential origin state with
  | (.ok receipt, state) => (.completed receipt, state)
  | (.error f, state) => (.failed f, state)

/-- The host that the program works on. -/
def host (o : Outside τ) (s : Upload.Settings) : Host (Shell.Site τ) :=
  Shell.host o.environment (o.publisher s)

/-- Finds out where a run comes from. -/
def origin (o : Outside τ) (directory : Path) (u : UploadOptions) : Job τ Origin := do
  let d ← get
  let (origin, tree) := Shell.detect o.environment directory o.fresh d.world.tree
  set { d with world := { d.world with tree } }
  return { origin with commit := u.commit.getD origin.commit }

/-- The token given as an option, or that of the configured variable. -/
def credential (o : Outside τ) (u : UploadOptions) (c : Config) : Job τ Credential :=
  Job.within "No upload token available"
    (Job.ofExcept
      (match u.token with
        | some token => Credential.ofToken token
        | .none => Credential.ofVariable o.environment.get? c.publish.tokenVariable))

end Outside

/-- Reads a report from a file. -/
def readReport (path : Path) : Job τ Coverage.Report := do
  match (← Job.tree).readText path with
  | .error f => throw (.trouble ⟨.inr f, [s!"Failed to read report {path.text}"]⟩)
  | .ok text =>
    Job.within s!"Failed to parse report {path.text}" (Job.perform (Aggregation.parse text))

/-- Writes a result to a file, if one is named. -/
def writeResult (path : Option Path) (r : Run.Result) : Job τ Unit :=
  match path with
  | some p =>
    Job.within s!"Failed to write {p.text}" (Job.changeFiles fun t => t.writeText p r.toJson.pretty)
  | .none => pure ()

/-! ## Tasks -/

/-- Runs the pipeline for an event. An event that starts no run asks for no token. -/
def runPipeline (o : Outside τ) (directory : Path) (config : Config) (event : Event)
    (u : UploadOptions) (resultPath : Option Path) : Job τ Int := do
  let origin ← o.origin directory u
  let pipeline ← Job.ofExcept (Run.Pipeline.make config directory)
  match pipeline.skipped? event origin with
  | some result =>
    (resultLines result).forM Job.say
    writeResult resultPath result
    return 0
  | none =>
    let credential ← o.credential u config
    Job.say s!"Running coverage pipeline in {directory.text}"
    Job.say s!"Event: {event.kind.name} {event.ref}"
    Job.say s!"Commit: {origin.commit}"
    Job.say ""
    let d ← get
    let site := { d.world.host with remaining := config.runTimeout.map fun n => 1000 * n.toNat }
    let (outcome, world) :=
      pipeline.run (o.host config.publish) event origin credential { d.world with host := site }
    set { d with world }
    match outcome with
    | .error .overflow => throw .overflow
    | .error _ => throw .unending
    | .ok result =>
      (resultLines result).forM Job.say
      writeResult resultPath result
      return result.exitCode

/-- Installs what the toolchain lacks. -/
def provision (o : Outside τ) (directory : Path) (config : Config) : Job τ Int := do
  let changes ← Job.perform (Toolchain.provision (o.host config.publish)
    ⟨directory, config.stageTimeout⟩ config.toolchain)
  if changes.any then
    if changes.toolchain then Job.say s!"Installed toolchain {config.toolchain.channel}"
    changes.components.forM fun c => Job.say s!"Added component {c}"
    if changes.tool then Job.say s!"Installed {config.toolchain.tool}"
  else Job.say s!"Toolchain {config.toolchain.channel} already provisioned"
  return 0

/-- Turns profiles that are there into a report. -/
def aggregate (o : Outside τ) (directory : Path) (config : Config) (root : Path) : Job τ Int := do
  let profiles := Profile.collect (← Job.tree) root
  let task : Aggregation.Task := ⟨config.aggregation, config.toolchain.tool, directory,
    some config.toolchain.channel, config.stageTimeout⟩
  let report ← Job.perform (task.aggregate (o.host config.publish) profiles)
  Job.say report.summary.table
  Job.say ""
  Job.say s!"Report: {task.reportPath.text}"
  Job.say s!"Digest: {report.digest}"
  return 0

/-- Uploads a report that is there. -/
def publish (o : Outside τ) (directory : Path) (config : Config) (path : Path) (u : UploadOptions) :
    Job τ Int := do
  let report ← readReport (directory.join path.text)
  let credential ← o.credential u config
  let origin ← o.origin directory u
  let receipt ← Job.perform (Action.upload (o.host config.publish) report credential origin)
  Job.say s!"✓ Uploaded {receipt.bytes.toNat} bytes for commit {origin.commit}"
  receipt.reportUrl.toList.forM fun url => Job.say s!"Report URL: {url}"
  return 0

/-- Prints how much of the code a report covers. -/
def summary (directory path : Path) (asJson : Bool) : Job τ Int := do
  let report ← readReport (directory.join path.text)
  Job.say (if asJson then (Run.summaryJson report.summary).pretty else report.summary.table)
  return 0

/-- Does what is asked. -/
def Request.perform (o : Outside τ) (r : Request) : Job τ Int :=
  match r.task with
  | .run event overrides upload runTimeout resultPath => do
    let config := upload.apply (← loadConfig r.config overrides)
    let config := { config with runTimeout := runTimeout.or config.runTimeout }
    runPipeline o r.directory config event upload resultPath
  | .shouldRun event => do
    let config ← loadConfig r.config .none
    Job.say (if config.trigger.starts event then "true" else "false")
    return 0
  | .provision overrides => do
    provision o r.directory (← loadConfig r.config overrides)
  | .aggregate overrides profiles => do
    aggregate o r.directory (← loadConfig r.config overrides) (profiles.getD r.directory)
  | .publish path upload => do
    let config := upload.apply (← loadConfig r.config .none)
    publish o r.directory config path upload
  | .summary path asJson => summary r.directory path asJson

/-! ## The program -/

/-- What the program leaves: its exit code if it ends, what it printed, what it complained of, and
the tree. -/
structure Outcome where
  exitCode : Option Int
  output : String
  errors : String
  tree : Tree
  deriving Repr

/-- How the program is used. -/
def usage : String :=
  "Usage: covflow [OPTIONS] <COMMAND>\n\n" ++
    "Commands: run, should-run, provision, aggregate, publish, summary\n"

/-- The program with its arguments on a tree, with the state of what carries its uploads. -/
def execute (o : Outside τ) (state : τ) (args : List String) (t : Tree) : Outcome :=
  match Request.read o.environment.get? args with
  | .error .help => ⟨some 0, usage, "", t⟩
  | .error .version => ⟨some 0, s!"covflow {Upload.version}\n", "", t⟩
  | .error .misused => ⟨some 2, "", usage, t⟩
  | .ok request =>
    let start : Desk τ := ⟨⟨t, ⟨none, state⟩, []⟩, ""⟩
    let (outcome, d) := StateT.run (ExceptT.run (request.perform o)) start
    match outcome with
    | .ok code => ⟨some code, d.printed, "", d.world.tree⟩
    | .error (.trouble t) => ⟨some t.exitCode, d.printed, s!"Error: {t.text}\n", d.world.tree⟩
    | .error .overflow => ⟨some 101, d.printed, "attempt to add with overflow\n", d.world.tree⟩
    | .error .unending => ⟨none, d.printed, "", d.world.tree⟩

end CoverageRun.CommandLine
