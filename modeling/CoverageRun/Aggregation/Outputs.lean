/-
The files of a report: the report itself, the raw output of the coverage tool, and the place where
the report is staged before it takes its name.
-/
import CoverageRun.Files.Operations

namespace CoverageRun.Aggregation

open Files

/-- A path as seen from the working directory. -/
def resolve (workDir path : Path) : Path := if path.isAbsolute then path else workDir.join path.text

/-- Where the coverage tool writes its output. -/
def rawPath (report : Path) : Path := report.withSuffix ".raw"

/-- Where a report is staged. -/
def stagedPath (report : Path) : Path := report.withSuffix ".tmp"

/-- The paths of a report, of its raw output and of its staged form, in the order they are removed. -/
def outputs (report : Path) : List Path := [report, rawPath report, stagedPath report]

/-- Removes a report, its raw output and its staged form, as far as they are there. -/
def discardOutputs (t : Tree) (report : Path) : Tree :=
  ((t.discard report).discard (rawPath report)).discard (stagedPath report)

/-- The same, with something happening to the tree when the first `n` of them have been removed. -/
def discardAround (t : Tree) (report : Path) (n : Nat) (change : Tree → Tree) : Tree :=
  ((outputs report).drop n).foldl Tree.discard
    (change (((outputs report).take n).foldl Tree.discard t))

end CoverageRun.Aggregation
