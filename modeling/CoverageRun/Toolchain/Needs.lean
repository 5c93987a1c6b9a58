/-
What a run needs to be installed: a compiler channel, components of it and the tool that turns
profiles into reports.
-/
import CoverageRun.Json.Record
import CoverageRun.Text.Blank

namespace CoverageRun.Toolchain

/-- A compiler channel, its components and the coverage tool. The values of the components do not
count: the map is a set of names. -/
structure Needs where
  channel : String
  components : Store.OrderedMap String Unit
  tool : String
  deriving DecidableEq, Repr, Inhabited

namespace Needs

/-- A set of names. -/
def nameSet (names : List String) : Store.OrderedMap String Unit := .ofList (names.map (·, ()))

/-- The nightly channel with the tools that read profiles. -/
def standard : Needs := ⟨"nightly", nameSet ["llvm-tools-preview"], "grcov"⟩

/-- What can be wrong with what is asked for. -/
inductive Fault where
  | noChannel
  | noComponentName
  | noTool
  deriving DecidableEq, Repr

/-- The wording of a fault. -/
def Fault.message : Fault → String
  | .noChannel => "toolchain channel is empty"
  | .noComponentName => "toolchain component name is empty"
  | .noTool => "instrumentation tool is empty"

/-- Checks that no name is blank. -/
def validate (s : Needs) : Except Fault Unit :=
  if Text.isBlankText s.channel then .error .noChannel
  else if s.components.keys.any Text.isBlankText then .error .noComponentName
  else if Text.isBlankText s.tool then .error .noTool
  else .ok ()

def toJson (s : Needs) : Json.Value := .object [
  ("channel", .text s.channel),
  ("components", .texts s.components.keys),
  ("instrumentation_tool", .text s.tool)]

def fields : List (Json.Field Needs) := [
  .of "channel" .fallback (·.readText) fun s c => { s with channel := c },
  .of "components" .fallback (·.readTexts) fun s cs => { s with components := nameSet cs },
  .of "instrumentation_tool" .fallback (·.readText) fun s t => { s with tool := t }]

def ofJson : Json.Node → Json.Reading Needs := Json.Node.readRecord fields standard

end Needs

end CoverageRun.Toolchain
