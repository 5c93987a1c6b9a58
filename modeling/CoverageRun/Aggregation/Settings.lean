/-
Settings of aggregation: where the instrumented programs and the sources are, what the report leaves
out and where it goes.
-/
import CoverageRun.Json.Record
import CoverageRun.Path

namespace CoverageRun.Aggregation

/-- How profiles are turned into a report. -/
structure Settings where
  binaryPath : Path
  sourceRoot : Path
  outputFormat : String
  branch : Bool
  ignoreNotExisting : Bool
  excludes : List String
  reportPath : Path
  deriving DecidableEq, Repr, Inhabited

namespace Settings

/-- Everything outside the project and its tests is left out. -/
def standard : Settings where
  binaryPath := ⟨"target/debug"⟩
  sourceRoot := ⟨"."⟩
  outputFormat := "lcov"
  branch := true
  ignoreNotExisting := true
  excludes := ["/*", "tests/*"]
  reportPath := ⟨"lcov.info"⟩

/-- What can be wrong with the settings. -/
inductive Fault where
  | unsupportedFormat (format : String)
  | noReportPath
  deriving DecidableEq, Repr

/-- The wording of a fault. -/
def Fault.message : Fault → String
  | .unsupportedFormat format => s!"unsupported output format `{format}` (expected lcov)"
  | .noReportPath => "report path is empty"

/-- Checks the format and that there is a report path. The patterns are looked at when they are
used. -/
def validate (s : Settings) : Except Fault Unit :=
  if s.outputFormat ≠ "lcov" then .error (.unsupportedFormat s.outputFormat)
  else if s.reportPath.text = "" then .error .noReportPath
  else .ok ()

def toJson (s : Settings) : Json.Value := .object [
  ("binary_path", .text s.binaryPath.text),
  ("source_root", .text s.sourceRoot.text),
  ("output_format", .text s.outputFormat),
  ("branch", .bool s.branch),
  ("ignore_not_existing", .bool s.ignoreNotExisting),
  ("excludes", .texts s.excludes),
  ("report_path", .text s.reportPath.text)]

def fields : List (Json.Field Settings) := [
  .of "binary_path" .fallback (·.readText) fun s p => { s with binaryPath := ⟨p⟩ },
  .of "source_root" .fallback (·.readText) fun s p => { s with sourceRoot := ⟨p⟩ },
  .of "output_format" .fallback (·.readText) fun s f => { s with outputFormat := f },
  .of "branch" .fallback (·.readBool) fun s b => { s with branch := b },
  .of "ignore_not_existing" .fallback (·.readBool) fun s b => { s with ignoreNotExisting := b },
  .of "excludes" .fallback (·.readTexts) fun s ps => { s with excludes := ps },
  .of "report_path" .fallback (·.readText) fun s p => { s with reportPath := ⟨p⟩ }]

def ofJson : Json.Node → Json.Reading Settings := Json.Node.readRecord fields standard

end Settings

end CoverageRun.Aggregation
