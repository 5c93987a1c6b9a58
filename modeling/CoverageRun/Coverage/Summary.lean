/-
Totals of a report: how many lines, branches and functions there are and how many were hit, as
percentages and as a table.
-/
import CoverageRun.Coverage.Record
import CoverageRun.Numeral.Binary64
import CoverageRun.Path

namespace CoverageRun.Coverage

open Numeral

/-! ## Counts -/

/-- How many lines, branches and functions there are, and how many of them were hit. -/
structure Counts where
  linesFound : Nat
  linesHit : Nat
  branchesFound : Nat
  branchesHit : Nat
  functionsFound : Nat
  functionsHit : Nat
  deriving DecidableEq, Repr, Inhabited

namespace Counts

def zero : Counts := ⟨0, 0, 0, 0, 0, 0⟩

def add (a b : Counts) : Counts where
  linesFound := a.linesFound + b.linesFound
  linesHit := a.linesHit + b.linesHit
  branchesFound := a.branchesFound + b.branchesFound
  branchesHit := a.branchesHit + b.branchesHit
  functionsFound := a.functionsFound + b.functionsFound
  functionsHit := a.functionsHit + b.functionsHit

/-- `hit` out of `found` in percent, rounded at both steps; nothing out of nothing has none. -/
def percent? (hit found : Nat) : Option Binary64 :=
  if found = 0 then none
  else some (((Binary64.ofNat hit).mul (.ofNat 100)).div (.ofNat found))

def linePercent? (c : Counts) : Option Binary64 := percent? c.linesHit c.linesFound

def branchPercent? (c : Counts) : Option Binary64 := percent? c.branchesHit c.branchesFound

def functionPercent? (c : Counts) : Option Binary64 := percent? c.functionsHit c.functionsFound

end Counts

/-- The counts of one file. A branch without a count was not hit. -/
def FileRecord.counts (r : FileRecord) : Counts where
  linesFound := r.lines.size
  linesHit := (r.lines.entries.filter fun e => e.2 > 0).length
  branchesFound := r.branches.size
  branchesHit := (r.branches.entries.filter fun e => e.2.getD 0 > 0).length
  functionsFound := r.functions.size
  functionsHit := (r.functions.entries.filter fun e => e.2.hits > 0).length

/-! ## Summaries -/

/-- The counts of each file, in report order, and their sum. -/
structure Summary where
  files : List (Path × Counts)
  total : Counts
  deriving DecidableEq, Repr, Inhabited

namespace Summary

/-- The summary of files with their counts. -/
def ofFiles (files : List (Path × Counts)) : Summary :=
  ⟨files, files.foldl (fun sum f => sum.add f.2) .zero⟩

/-- The counts of the file spelled exactly so. -/
def file? (s : Summary) (path : String) : Option Counts :=
  (s.files.find? fun f => f.1.text == path).map Prod.snd

/-! ## Tables -/

/-- A text filled up with blanks on the right; a longer one stays whole. -/
def padRight (width : Nat) (s : String) : String := s ++ "".pushn ' ' (width - s.length)

/-- A text filled up with blanks on the left; a longer one stays whole. -/
def padLeft (width : Nat) (s : String) : String := "".pushn ' ' (width - s.length) ++ s

/-- A row: the name in fifty columns, the three values in eight columns each. -/
def row (name lines branches functions : String) : String :=
  padRight 50 name ++ " " ++ padLeft 8 lines ++ " " ++ padLeft 8 branches ++ " " ++
    padLeft 8 functions

/-- A percentage with one decimal place. -/
def percentText : Option Binary64 → String
  | some p => p.oneDecimal ++ "%"
  | none => "n/a"

/-- A row of percentages. -/
def countsRow (name : String) (c : Counts) : String :=
  row name (percentText c.linePercent?) (percentText c.branchPercent?)
    (percentText c.functionPercent?)

/-- The table: a heading, a row for each file and the total, without a final line feed. -/
def table (s : Summary) : String :=
  Text.joinText "\n"
    (row "File" "Lines" "Branches" "Funcs" :: s.files.map (fun f => countsRow f.1.text f.2) ++
      [countsRow "TOTAL" s.total])

end Summary

end CoverageRun.Coverage
