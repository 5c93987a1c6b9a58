/-
Settings of publishing: the service, the variable with the token, and what is said of an upload.
-/
import CoverageRun.Json.Record

namespace CoverageRun.Upload

/-- How a report is published. -/
structure Settings where
  baseUrl : String
  tokenVariable : String
  flags : List String
  name : Option String
  timeout : UInt64
  deriving DecidableEq, Repr, Inhabited

namespace Settings

def standard : Settings := ⟨"https://codecov.io", "CODECOV_TOKEN", [], none, 60⟩

def toJson (s : Settings) : Json.Value := .object [
  ("base_url", .text s.baseUrl),
  ("token_env", .text s.tokenVariable),
  ("flags", .texts s.flags),
  ("name", .optional .text s.name),
  ("timeout_secs", .word s.timeout)]

def fields : List (Json.Field Settings) := [
  .of "base_url" .fallback (·.readText) fun s u => { s with baseUrl := u },
  .of "token_env" .fallback (·.readText) fun s v => { s with tokenVariable := v },
  .of "flags" .fallback (·.readTexts) fun s fs => { s with flags := fs },
  .of "name" .fallback (·.readOptional (·.readText)) fun s n => { s with name := n },
  .of "timeout_secs" .fallback (·.readWord) fun s n => { s with timeout := n }]

def ofJson : Json.Node → Json.Reading Settings := Json.Node.readRecord fields standard

end Settings

/-- What a successful upload gives: where the report can be seen, and how many octets it has. -/
structure Receipt where
  reportUrl : Option String
  bytes : UInt64
  deriving DecidableEq, Repr, Inhabited

namespace Receipt

def toJson (r : Receipt) : Json.Value := .object [
  ("report_url", .optional .text r.reportUrl),
  ("bytes", .word r.bytes)]

def fields : List (Json.Field Receipt) := [
  .of "report_url" .nothing (·.readOptional (·.readText)) fun r u => { r with reportUrl := u },
  .of "bytes" .fault (·.readWord) fun r n => { r with bytes := n }]

def ofJson : Json.Node → Json.Reading Receipt := Json.Node.readRecord fields ⟨none, 0⟩

end Receipt

end CoverageRun.Upload
