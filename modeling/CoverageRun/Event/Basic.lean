/-
Events: what happened to the repository, of which kind it is and on which ref.
-/
import CoverageRun.Json.Record
import CoverageRun.Text.Blank

namespace CoverageRun

/-- The kind of an event. -/
inductive Event.Kind where
  | push
  | pullRequest
  | other (name : String)
  deriving DecidableEq, Repr, Inhabited

namespace Event.Kind

/-- The kind an event name stands for; blanks around it do not count. -/
def ofName (s : String) : Event.Kind :=
  let name := String.ofList (Text.trim s.toList)
  if name = "push" then .push
  else if name = "pull_request" then .pullRequest
  else .other name

/-- The name of a kind of event. -/
def name : Event.Kind → String
  | .push => "push"
  | .pullRequest => "pull_request"
  | .other name => name

def toJson : Event.Kind → Json.Value
  | .push => .text "push"
  | .pullRequest => .text "pull_request"
  | .other name => .object [("other", .text name)]

def ofJson : Json.Node → Json.Reading Event.Kind := Json.Node.readChoice [
  .word "push" .push,
  .word "pull_request" .pullRequest,
  ⟨"other", none, fun v => v.readText.map .other⟩]

end Event.Kind

/-- An event: its kind and the branch or ref it happened on. -/
structure Event where
  kind : Event.Kind
  ref : String
  deriving DecidableEq, Repr, Inhabited

namespace Event

def toJson (e : Event) : Json.Value :=
  .object [("kind", e.kind.toJson), ("git_ref", .text e.ref)]

def fields : List (Json.Field Event) := [
  .of "kind" .fault Event.Kind.ofJson fun e k => { e with kind := k },
  .of "git_ref" .fault (·.readText) fun e r => { e with ref := r }]

def ofJson : Json.Node → Json.Reading Event := Json.Node.readRecord fields ⟨.push, ""⟩

end Event

end CoverageRun
