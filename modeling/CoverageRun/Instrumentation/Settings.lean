/-
Settings of the instrumented build: compiler flags, where profiles go, and arguments for building
and testing.
-/
import CoverageRun.Json.Record
import CoverageRun.Profile.Pattern

namespace CoverageRun.Instrumentation

/-- Settings of the instrumented build and test. -/
structure Settings where
  compilerFlags : String
  profilePattern : String
  buildArgs : List String
  testArgs : List String
  deriving DecidableEq, Repr, Inhabited

namespace Settings

/-- Coverage of the source with branches, one profile for each process and module. -/
def standard : Settings :=
  ⟨"-Cinstrument-coverage -Zcoverage-options=branch", "covflow-%p-%m.profraw", [], []⟩

/-- What can be wrong with the settings. -/
inductive Fault where
  | notInstrumented (flags : String)
  | pattern (cause : Profile.PatternFault)
  deriving DecidableEq, Repr

/-- The wording of a fault. -/
def Fault.message : Fault → String
  | .notInstrumented flags => s!"rustflags `{flags}` do not enable -Cinstrument-coverage"
  | .pattern cause => cause.message

/-- Checks that the flags instrument the program and that profiles do not collide. -/
def validate (s : Settings) : Except Fault Unit :=
  if Text.contains "instrument-coverage".toList s.compilerFlags.toList = false then
    .error (.notInstrumented s.compilerFlags)
  else (Profile.validatePattern s.profilePattern).mapError .pattern

/-- The variables an instrumented build or test runs with, pinned to a channel or not. -/
def environment (s : Settings) (channel : Option String) : List (String × String) :=
  [("RUSTFLAGS", s.compilerFlags), ("LLVM_PROFILE_FILE", s.profilePattern),
      ("CARGO_INCREMENTAL", "0")] ++
    channel.toList.map fun c => ("RUSTUP_TOOLCHAIN", c)

def toJson (s : Settings) : Json.Value := .object [
  ("rustflags", .text s.compilerFlags),
  ("profile_file_pattern", .text s.profilePattern),
  ("build_args", .texts s.buildArgs),
  ("test_args", .texts s.testArgs)]

def fields : List (Json.Field Settings) := [
  .of "rustflags" .fallback (·.readText) fun s flags => { s with compilerFlags := flags },
  .of "profile_file_pattern" .fallback (·.readText) fun s p => { s with profilePattern := p },
  .of "build_args" .fallback (·.readTexts) fun s args => { s with buildArgs := args },
  .of "test_args" .fallback (·.readTexts) fun s args => { s with testArgs := args }]

def ofJson : Json.Node → Json.Reading Settings := Json.Node.readRecord fields standard

end Settings

end CoverageRun.Instrumentation
