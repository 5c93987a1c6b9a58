/-
The five stages of a run, and the phases a run goes through: idle, one phase for each stage, and
three ends.
-/
import CoverageRun.Json.Record

namespace CoverageRun

/-! ## Stages -/

/-- A stage of a run. -/
inductive Stage where
  | provision
  | build
  | test
  | aggregate
  | publish
  deriving DecidableEq, Repr, Inhabited

namespace Stage

/-- The stages in the order they run. -/
def order : List Stage := [.provision, .build, .test, .aggregate, .publish]

/-- The name of a stage. -/
def name : Stage → String
  | .provision => "provision"
  | .build => "build"
  | .test => "test"
  | .aggregate => "aggregate"
  | .publish => "publish"

def toJson (s : Stage) : Json.Value := .text s.name

def ofJson : Json.Node → Json.Reading Stage :=
  Json.Node.readChoice (order.map fun s => .word s.name s)

end Stage

/-! ## Phases -/

/-- How the work of a phase ended. -/
inductive Outcome where
  | succeeded
  | failed
  deriving DecidableEq, Repr

/-- Where a run stands. -/
inductive Phase where
  | idle
  | provisioning
  | building
  | testing
  | aggregating
  | publishing
  | succeeded
  | failed
  | skipped
  deriving DecidableEq, Repr, Inhabited

namespace Phase

/-- All phases. -/
def all : List Phase :=
  [.idle, .provisioning, .building, .testing, .aggregating, .publishing, .succeeded, .failed,
    .skipped]

/-- The name of a phase. -/
def name : Phase → String
  | .idle => "idle"
  | .provisioning => "provisioning"
  | .building => "building"
  | .testing => "testing"
  | .aggregating => "aggregating"
  | .publishing => "publishing"
  | .succeeded => "succeeded"
  | .failed => "failed"
  | .skipped => "skipped"

/-- A phase in which a run has ended. -/
def isTerminal : Phase → Bool
  | .succeeded | .failed | .skipped => true
  | _ => false

/-- The phase after this one when its work succeeds; the ends stay. -/
def next : Phase → Phase
  | .idle => .provisioning
  | .provisioning => .building
  | .building => .testing
  | .testing => .aggregating
  | .aggregating => .publishing
  | .publishing => .succeeded
  | p => p

/-- The phase after this one: success leads one further, failure to the end; the ends stay. -/
def advance (p : Phase) (o : Outcome) : Phase :=
  match o with
  | .succeeded => p.next
  | .failed => if p.isTerminal then p else .failed

/-- Leaves the idle phase without running anything. -/
def skip : Phase → Phase
  | .idle => .skipped
  | p => p

/-- The stage that runs in a phase. -/
def stage? : Phase → Option Stage
  | .provisioning => some .provision
  | .building => some .build
  | .testing => some .test
  | .aggregating => some .aggregate
  | .publishing => some .publish
  | _ => none

def toJson (p : Phase) : Json.Value := .text p.name

def ofJson : Json.Node → Json.Reading Phase :=
  Json.Node.readChoice (all.map fun p => .word p.name p)

end Phase

end CoverageRun
