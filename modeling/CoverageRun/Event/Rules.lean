/-
The rules that tell which events start a run: a push by its branch, a pull request by its ref,
anything else never. A pattern that can be read can be matched against, however large it is: what
matches patterns is taken to have no limit of its own here.
-/
import CoverageRun.Event.Basic
import CoverageRun.Glob.Match

namespace CoverageRun

/-! ## Refs -/

/-- What a ref points at. -/
inductive GitRef where
  | branch (name : String)
  | tag (name : String)
  | pullRequest (rest : String)
  deriving DecidableEq, Repr

/-- What a ref points at; one without a known beginning is the name of a branch. -/
def GitRef.ofText (ref : String) : GitRef :=
  match Text.afterText? "refs/heads/" ref with
  | some name => .branch name
  | none =>
    match Text.afterText? "refs/tags/" ref with
    | some name => .tag name
    | none =>
      match Text.afterText? "refs/pull/" ref with
      | some rest => .pullRequest rest
      | none => .branch ref

/-! ## Rules -/

/-- Patterns for branches that are pushed to and for refs of pull requests. -/
structure StartRules where
  pushBranches : List String
  pullRequestRefs : List String
  deriving DecidableEq, Repr, Inhabited

namespace StartRules

/-- Every push to a branch and every pull request starts a run. -/
def standard : StartRules := ⟨["*"], ["*"]⟩

/-- Whether a text matches one of several patterns. One that is no pattern matches nothing. -/
def matchesAny (patterns : List String) (s : String) : Bool :=
  patterns.any fun text =>
    match Glob.Pattern.parse text with
    | .ok p => p.accepts s
    | .error _ => false

/-- Whether an event starts a run. -/
def starts (r : StartRules) (e : Event) : Bool :=
  match e.kind, GitRef.ofText e.ref with
  | .push, .branch name => matchesAny r.pushBranches name
  | .push, _ => false
  | .pullRequest, .branch name | .pullRequest, .tag name => matchesAny r.pullRequestRefs name
  | .pullRequest, .pullRequest _ => matchesAny r.pullRequestRefs e.ref
  | .other _, _ => false

/-- A pattern that is none. -/
structure Fault where
  pattern : String
  cause : Glob.Fault
  deriving DecidableEq, Repr

/-- The wording of a fault in the rules. -/
def Fault.message (f : Fault) : String :=
  s!"invalid trigger pattern `{f.pattern}`: {f.cause.message f.pattern}"

/-- Checks patterns in order. -/
def checkPatterns : List String → Except Fault Unit
  | [] => .ok ()
  | p :: ps =>
    match Glob.Pattern.parse p with
    | .ok _ => checkPatterns ps
    | .error cause => .error ⟨p, cause⟩

/-- Checks that every pattern is one. -/
def validate (r : StartRules) : Except Fault Unit :=
  checkPatterns (r.pushBranches ++ r.pullRequestRefs)

def toJson (r : StartRules) : Json.Value := .object [
  ("push_branches", .texts r.pushBranches),
  ("pull_request_refs", .texts r.pullRequestRefs)]

def fields : List (Json.Field StartRules) := [
  .of "push_branches" .fallback (·.readTexts) fun r ps => { r with pushBranches := ps },
  .of "pull_request_refs" .fallback (·.readTexts) fun r ps => { r with pullRequestRefs := ps }]

def ofJson : Json.Node → Json.Reading StartRules := Json.Node.readRecord fields standard

end StartRules

end CoverageRun
