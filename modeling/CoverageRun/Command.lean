/-
Commands of other programs: what is to be run, where and with which variables, and what came of it.
-/
import CoverageRun.Json.Record
import CoverageRun.Path
import CoverageRun.Text.Split

namespace CoverageRun

/-! ## Commands -/

/-- A command: a label, the program with its arguments, variables set for it, the directory it runs
in and the seconds it may take, zero for as long as it likes. -/
structure Command where
  name : String
  words : List String
  environment : Store.OrderedMap String String
  directory : Option Path
  timeout : UInt64
  deriving DecidableEq, Repr, Inhabited

namespace Command

/-- A command with no variables, in the directory of its caller. -/
def make (name : String) (words : List String) (timeout : UInt64) : Command :=
  ⟨name, words, .empty, none, timeout⟩

/-- The command run in a directory. -/
def inDirectory (c : Command) (dir : Path) : Command := { c with directory := some dir }

/-- The command with variables set besides those it has. -/
def withVariables (c : Command) (vars : List (String × String)) : Command :=
  { c with environment := vars.foldl (fun m v => m.insert v.1 v.2) c.environment }

/-- Whether the command begins with these words. -/
def startsWith (c : Command) (words : List String) : Bool := words.isPrefixOf c.words

/-- The words of the command with blanks between them. -/
def line (c : Command) : String := Text.joinText " " c.words

/-- The word that follows the first `-o`. -/
def outputPath? (c : Command) : Option String :=
  match c.words.dropWhile (· != "-o") with
  | _ :: path :: _ => some path
  | _ => none

def toJson (c : Command) : Json.Value := .object [
  ("name", .text c.name),
  ("command", .texts c.words),
  ("env", .object (c.environment.entries.map fun v => (v.1, .text v.2))),
  ("current_dir", .optional (fun p => .text p.text) c.directory),
  ("timeout_secs", .word c.timeout)]

def fields : List (Json.Field Command) := [
  .of "name" .fault (·.readText) fun c s => { c with name := s },
  .of "command" .fault (·.readTexts) fun c ws => { c with words := ws },
  .of "env" .fallback (·.readMap (·.readText)) fun c m => { c with environment := m },
  .of "current_dir" .fallback (·.readOptional (·.readText)) fun c s =>
    { c with directory := s.map Path.mk },
  .of "timeout_secs" .fault (·.readWord) fun c n => { c with timeout := n }]

def ofJson : Json.Node → Json.Reading Command := Json.Node.readRecord fields (make "" [] 0)

end Command

/-! ## Completions -/

/-- What came of a command that ran. -/
structure Completion where
  name : String
  exitCode : Int
  stdout : String
  stderr : String
  /-- Whether the program reported success. -/
  success : Bool
  deriving DecidableEq, Repr, Inhabited

namespace Completion

/-- A command has passed if it reported success with exit code zero. -/
def passed (c : Completion) : Bool := c.success && c.exitCode == 0

/-- The last lines a command wrote to its error stream. -/
def stderrTail (c : Completion) (count : Nat) : String := Text.lastLines count c.stderr

end Completion

end CoverageRun
