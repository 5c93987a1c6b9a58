/-
Coverage reports: the record of each source file, in path order. Paths with the same parts name the
same file; the report keeps the first spelling it met.
-/
import CoverageRun.Coverage.Summary

namespace CoverageRun.Coverage

open Store

/-- The coverage of a program, file by file. -/
structure Report where
  files : OrderedMap Path FileRecord
  deriving DecidableEq, Repr, Inhabited

namespace Report

/-- The report without files. -/
def empty : Report := ⟨.empty⟩

/-- The number of files. -/
def size (r : Report) : Nat := r.files.size

/-- The paths of the files, as spelled, in order. -/
def paths (r : Report) : List Path := r.files.keys

/-- The record of a file. -/
def file? (r : Report) (path : Path) : Option FileRecord := r.files.get? path

/-- The report with a record added to what is known of a file; `none` if a sum does not fit. -/
def insert? (r : Report) (path : Path) (record : FileRecord) : Option Report :=
  match r.files.get? path with
  | none => some ⟨r.files.insert path record⟩
  | some known => (known.merge? record).map fun merged => ⟨r.files.insert path merged⟩

/-- The files whose path passes a test. -/
def retain (r : Report) (keep : Path → Bool) : Report := ⟨r.files.filter fun p _ => keep p⟩

/-- How many files a test drops: the difference it makes to the size. -/
def dropped (r : Report) (keep : Path → Bool) : Nat := r.size - (r.retain keep).size

/-- The counts of the files and of the whole. -/
def summary (r : Report) : Summary :=
  .ofFiles (r.files.entries.map fun e => (e.1, e.2.counts))

/-- Whether two reports say the same of the same files, however the paths are spelled. -/
def same (r s : Report) : Bool :=
  r.size == s.size &&
    (r.files.entries.zip s.files.entries).all fun (a, b) => a.1.same b.1 && a.2 == b.2

end Report

end CoverageRun.Coverage
