/-
What the program is asked to do: its commands with their options, as arguments and the environment
give them. An option on the command line goes before a variable, and a variable before the default.
-/
import CoverageRun.CommandLine.Arguments
import CoverageRun.Event.Rules
import CoverageRun.Path

namespace CoverageRun.CommandLine

/-! ## Requests -/

/-- Options that go before the configuration. -/
structure Overrides where
  channel : Option String
  excludes : List String
  report : Option String
  stageTimeout : Option UInt64
  deriving DecidableEq, Repr, Inhabited

/-- Options of an upload. -/
structure UploadOptions where
  token : Option String
  baseUrl : Option String
  commit : Option String
  flags : List String
  deriving DecidableEq, Repr, Inhabited

/-- A command of the program. -/
inductive Task where
  | run (event : Event) (overrides : Overrides) (upload : UploadOptions)
      (runTimeout : Option UInt64) (resultPath : Option Path)
  | shouldRun (event : Event)
  | provision (overrides : Overrides)
  | aggregate (overrides : Overrides) (profiles : Option Path)
  | publish (report : Path) (upload : UploadOptions)
  | summary (report : Path) (asJson : Bool)
  deriving DecidableEq, Repr

/-- What the program is asked to do: with which configuration, in which directory, and how much it
tells of it. -/
structure Request where
  config : Option Path
  directory : Path
  verbose : Bool
  jsonLog : Bool
  task : Task
  deriving DecidableEq, Repr

/-! ## Options -/

def helpFlag : Flag := ⟨"help", some 'h', .switch, false⟩

/-- The options that every command takes. -/
def generalFlags : List Flag := [
  ⟨"verbose", some 'v', .switch, false⟩,
  ⟨"json", none, .switch, false⟩,
  ⟨"config", some 'c', .path, false⟩,
  ⟨"work-dir", some 'C', .path, false⟩,
  helpFlag]

/-- The options before the command. -/
def leadingFlags : List Flag := generalFlags ++ [⟨"version", some 'V', .switch, false⟩]

def eventFlags : List Flag := [
  ⟨"event", none, .text, false⟩,
  ⟨"ref", none, .text, false⟩]

def overrideFlags : List Flag := [
  ⟨"channel", none, .text, false⟩,
  ⟨"exclude", none, .text, true⟩,
  ⟨"report", none, .path, false⟩,
  ⟨"stage-timeout", none, .number, false⟩]

def uploadFlags : List Flag := [
  ⟨"token", none, .text, false⟩,
  ⟨"base-url", none, .text, false⟩,
  ⟨"commit", none, .text, false⟩,
  ⟨"flag", none, .text, true⟩]

/-- The commands: their names, their own options, and whether they take the path of a report. -/
def commands : List (String × List Flag × Bool) := [
  ("run", eventFlags ++ overrideFlags ++ uploadFlags ++
    [⟨"run-timeout", none, .number, false⟩, ⟨"json-result", none, .path, false⟩], false),
  ("should-run", eventFlags, false),
  ("provision", overrideFlags, false),
  ("aggregate", overrideFlags ++ [⟨"profile-dir", none, .path, false⟩], false),
  ("publish", uploadFlags, true),
  ("summary", [⟨"format", none, .oneOf ["table", "json"], false⟩], true)]

/-! ## Reading -/

/-- A number that was checked as it was read. -/
def numberOf (g : Given) (name : String) : Option UInt64 :=
  (g.value? name).bind fun s => Numeral.read64 s.toList

def overridesOf (g : Given) : Overrides :=
  ⟨g.value? "channel", g.values "exclude", g.value? "report", numberOf g "stage-timeout"⟩

/-- The options of an upload; a variable may give the token. -/
def uploadOf (var : String → Option String) (g : Given) : UploadOptions :=
  ⟨(g.value? "token").or (var "CODECOV_TOKEN"), g.value? "base-url", g.value? "commit",
    g.values "flag"⟩

/-- The event to look at. Its ref must be given. -/
def eventOf (var : String → Option String) (g : Given) : Except Refusal Event :=
  let kind := ((g.value? "event").or (var "GITHUB_EVENT_NAME")).getD "push"
  match (g.value? "ref").or (var "GITHUB_REF") with
  | some ref => .ok ⟨.ofName kind, ref⟩
  | none => .error .misused

/-- The path of the report that a command takes. -/
def reportOf (g : Given) : Path := ⟨g.words.headD "lcov.info"⟩

/-- The task that a command names with its options. -/
def taskOf (var : String → Option String) (name : String) (g : Given) : Except Refusal Task :=
  match name with
  | "run" => do
    return .run (← eventOf var g) (overridesOf g) (uploadOf var g) (numberOf g "run-timeout")
      ((g.value? "json-result").map Path.mk)
  | "should-run" => do return .shouldRun (← eventOf var g)
  | "provision" => .ok (.provision (overridesOf g))
  | "aggregate" => .ok (.aggregate (overridesOf g) ((g.value? "profile-dir").map Path.mk))
  | "publish" => .ok (.publish (reportOf g) (uploadOf var g))
  | "summary" => .ok (.summary (reportOf g) (g.value? "format" = some "json"))
  | _ => .error .misused

/-- The words that name what is to be done. -/
def isCommand (word : String) : Bool := word == "help" || commands.any fun c => c.1 == word

/-- Reads what the program is asked to do. -/
def Request.read (var : String → Option String) (args : List String) : Except Refusal Request := do
  let (before, rest) ← readUpTo leadingFlags isCommand .nothing args
  let some name := rest.head? | throw .misused
  if name = "help" then throw .help
  if before.words ≠ [] then throw .misused
  let some (_, flags, takesPath) := commands.find? fun c => c.1 == name | throw .misused
  let (after, _) ← readUpTo (generalFlags ++ flags) (fun _ => false) .nothing (rest.drop 1)
  if (if takesPath then 1 else 0) < after.words.length ∨ after.words.contains "" then throw .misused
  let general (name : String) : Option String := (after.value? name).or (before.value? name)
  let config := (general "config").or (var "COVFLOW_CONFIG")
  if config = some "" then throw .misused
  let task ← taskOf var name after
  return {
    config := config.map Path.mk
    directory := ⟨(general "work-dir").getD "."⟩
    verbose := (general "verbose").isSome
    jsonLog := (general "json").isSome
    task }

end CoverageRun.CommandLine
