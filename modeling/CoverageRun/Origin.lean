/-
Where a run comes from: repository, commit, branch, run and pull request, as the variables of the
CI service or the version control program tell.
-/
import CoverageRun.Json.Record
import CoverageRun.Numeral.Whole
import CoverageRun.Text.Split

namespace CoverageRun

/-- Where a run comes from. -/
structure Origin where
  repository : Option String
  commit : String
  branch : Option String
  runId : String
  pullRequest : Option UInt64
  service : String
  deriving DecidableEq, Repr, Inhabited

/-- The number of the pull request a ref belongs to: `refs/pull/42/merge` belongs to 42. -/
def pullRequestNumber? (ref : String) : Option UInt64 := do
  let rest ← Text.after? "refs/pull/".toList ref.toList
  let number ← (Text.split '/' rest).head?
  Numeral.read64 number

namespace Origin

/-- A run of a commit of which nothing else is known. -/
def ofCommit (commit runId : String) : Origin := ⟨none, commit, none, runId, none, "custom"⟩

/-- The repository, or a word for not knowing it. -/
def slug (c : Origin) : String := c.repository.getD "unknown"

/-! ## Finding out -/

/-- The branch: the head of a pull request; else the short name of the ref, unless that is a pull
request's; else what the full ref says. -/
def branchOf (var : String → Option String) (ref : String) : Option String :=
  match (var "GITHUB_HEAD_REF").filter (· ≠ "") with
  | some head => some head
  | none =>
    match (var "GITHUB_REF_NAME").filter fun _ => (pullRequestNumber? ref).isNone with
    | some name => some name
    | none => Text.afterText? "refs/heads/" ref

/-- The origin that variables of the CI service give, if they name a commit; `fresh` stands for a
run without a number. -/
def ofVariables? (var : String → Option String) (fresh : String) : Option Origin :=
  (var "GITHUB_SHA").map fun commit =>
    let ref := (var "GITHUB_REF").getD ""
    { repository := var "GITHUB_REPOSITORY"
      commit
      branch := branchOf var ref
      runId := (var "GITHUB_RUN_ID").getD fresh
      pullRequest := pullRequestNumber? ref
      service := "github-actions" }

/-- The answer of the version control program: its octets must be text with more than blanks. -/
def answer? (stdout : List UInt8) : Option String := do
  let s ← Text.ofOctets? stdout
  let s := Text.trim s.toList
  if s = [] then none else some (String.ofList s)

/-- How the version control program is asked for the commit. -/
def commitQuestion : List String := ["rev-parse", "HEAD"]

/-- How the version control program is asked for the branch. -/
def branchQuestion : List String := ["rev-parse", "--abbrev-ref", "HEAD"]

/-- The origin that variables give, or else the version control program: `git` gives what it
writes to its output for some arguments, if it runs and passes. -/
def detect (var : String → Option String) (git : List String → Option (List UInt8))
    (fresh : String) : Origin :=
  match ofVariables? var fresh with
  | some c => c
  | none =>
    let commit := ((git commitQuestion).bind answer?).getD "unknown"
    let branch := (git branchQuestion).bind answer?
    { ofCommit commit fresh with branch := branch.filter (· ≠ "HEAD") }

/-! ## JSON -/

def toJson (c : Origin) : Json.Value := .object [
  ("repository", .optional .text c.repository),
  ("commit", .text c.commit),
  ("branch", .optional .text c.branch),
  ("run_id", .text c.runId),
  ("pull_request", .optional .word c.pullRequest),
  ("service", .text c.service)]

def fields : List (Json.Field Origin) := [
  .of "repository" .nothing (·.readOptional (·.readText)) fun c s => { c with repository := s },
  .of "commit" .fault (·.readText) fun c s => { c with commit := s },
  .of "branch" .nothing (·.readOptional (·.readText)) fun c s => { c with branch := s },
  .of "run_id" .fault (·.readText) fun c s => { c with runId := s },
  .of "pull_request" .nothing (·.readOptional (·.readWord)) fun c n => { c with pullRequest := n },
  .of "service" .fault (·.readText) fun c s => { c with service := s }]

def ofJson : Json.Node → Json.Reading Origin := Json.Node.readRecord fields (ofCommit "" "")

end Origin

end CoverageRun
