/-
What is known of one source file: how often each line ran, each branch was taken and each function
was called. Counts have 64 bits; a sum that does not fit makes every operation here give `none`.
-/
import CoverageRun.Store.OrderedMap

namespace CoverageRun.Coverage

open Store

/-! ## Counts -/

/-- The sum of two counts, if 64 bits hold it. -/
def addHits? (a b : UInt64) : Option UInt64 :=
  if a.toNat + b.toNat < UInt64.size then some (a + b) else none

/-- The sum of two branch counts. A branch without a count was never reached: it adds nothing, and
it has a count from the first entry that brings one. -/
def addTaken? : Option UInt64 → Option UInt64 → Option (Option UInt64)
  | some a, some b => (addHits? a b).map some
  | some a, none => some (some a)
  | none, b => some b

/-! ## Branches and functions -/

/-- One outcome of one branch point. -/
structure BranchId where
  line : UInt32
  block : UInt32
  branch : UInt32
  deriving DecidableEq, Repr, Inhabited

namespace BranchId

/-- Branches go by line, then block, then number. -/
instance : Ord BranchId :=
  ⟨compareLex (compareOn line) (compareLex (compareOn block) (compareOn branch))⟩

instance : Std.TransOrd BranchId :=
  inferInstanceAs
    (Std.TransCmp (compareLex (compareOn line) (compareLex (compareOn block) (compareOn branch))))

instance : Std.LawfulEqOrd BranchId where
  eq_of_compare {a b} h := by
    have h' :
        compareLex (compareOn line) (compareLex (compareOn block) (compareOn branch)) a b = .eq := h
    simp only [compareLex, compareOn, Ordering.then_eq_eq] at h'
    obtain ⟨h1, h2, h3⟩ := h'
    have h1 := Std.LawfulEqOrd.eq_of_compare h1
    have h2 := Std.LawfulEqOrd.eq_of_compare h2
    have h3 := Std.LawfulEqOrd.eq_of_compare h3
    cases a; cases b; simp_all

end BranchId

/-- Where a function stands and how often it was called. -/
structure FunctionRecord where
  line : UInt32
  hits : UInt64
  deriving DecidableEq, Repr, Inhabited

/-! ## Records -/

/-- What is known of one source file. -/
structure FileRecord where
  lines : OrderedMap UInt32 UInt64
  branches : OrderedMap BranchId (Option UInt64)
  functions : OrderedMap String FunctionRecord
  deriving DecidableEq, Repr, Inhabited

namespace FileRecord

/-- A file of which nothing is known. -/
def empty : FileRecord := ⟨.empty, .empty, .empty⟩

/-- `hits` more runs of a line. -/
def addLine? (r : FileRecord) (line : UInt32) (hits : UInt64) : Option FileRecord :=
  (addHits? ((r.lines.get? line).getD 0) hits).map fun n =>
    { r with lines := r.lines.insert line n }

/-- A branch taken some more times, or met without a count. -/
def addBranch? (r : FileRecord) (id : BranchId) (taken : Option UInt64) : Option FileRecord :=
  (addTaken? ((r.branches.get? id).getD none) taken).map fun n =>
    { r with branches := r.branches.insert id n }

/-- A function said to stand at a line. -/
def placeFunction (r : FileRecord) (name : String) (line : UInt32) : FileRecord :=
  { r with functions := r.functions.upsert name fun f => { (f.getD ⟨line, 0⟩) with line } }

/-- `hits` more calls of a function; one not met before stands at `line`. -/
def addCalls? (r : FileRecord) (name : String) (line : UInt32) (hits : UInt64) :
    Option FileRecord :=
  let f := (r.functions.get? name).getD ⟨line, 0⟩
  (addHits? f.hits hits).map fun n =>
    { r with functions := r.functions.insert name { f with hits := n } }

/-- Everything known of a file from two records: counts are added, and a function in both stays at
the line the first one gives it. -/
def merge? (r s : FileRecord) : Option FileRecord := do
  let r ← s.lines.entries.foldlM (fun r e => r.addLine? e.1 e.2) r
  let r ← s.branches.entries.foldlM (fun r e => r.addBranch? e.1 e.2) r
  s.functions.entries.foldlM (fun r e => r.addCalls? e.1 e.2.line e.2.hits) r

end FileRecord

end CoverageRun.Coverage
