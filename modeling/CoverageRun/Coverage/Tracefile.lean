/-
Tracefiles: a report as lines of text, and the reading of such lines. Records of one file are put
together, and what can be computed again (totals) is not taken from the text. Writing goes in a
fixed order, and the path of a file is written as it is spelled: reports with the same counts at the
same paths have one text if for that spelling.
-/
import CoverageRun.Coverage.Report
import CoverageRun.Coverage.Statement
import CoverageRun.Digest.Sha256

namespace CoverageRun.Coverage

/-! ## Reading -/

/-- Why a text is no tracefile. -/
inductive TracefileError where
  /-- The line with this number, counted from one, is at fault. -/
  | malformed (line : Nat) (fault : Statement.Fault)
  /-- Two counts of one line, branch or function do not fit into 64 bits together. -/
  | overflow
  deriving DecidableEq, Repr

/-- The reading so far: the files whose records have ended, and the record that is open. -/
structure Progress where
  report : Report
  current : Option (Path × FileRecord)
  deriving Repr, Inhabited

namespace Progress

/-- Nothing read yet. -/
def start : Progress := ⟨.empty, none⟩

/-- The report with the open record put into it. -/
def close? (p : Progress) : Option Report :=
  match p.current with
  | none => some p.report
  | some (path, record) => p.report.insert? path record

/-- What a data statement adds to the record of a file; other statements add nothing. -/
def record? (record : FileRecord) : Statement → Option FileRecord
  | .lineHits line hits => record.addLine? line hits
  | .branchTaken id taken => record.addBranch? id taken
  | .functionLine line name => some (record.placeFunction name line)
  | .functionHits hits name => record.addCalls? name 0 hits
  | _ => some record

/-- A sum, or the error of not having one. -/
def orOverflow {α : Type} : Option α → Except TracefileError α
  | some a => .ok a
  | none => .error .overflow

/-- The reading after one more line. A fault in a data line outside a record is not looked at: the
line stands in the wrong place whatever it says. -/
def step (number : Nat) (p : Progress) (line : List Char) : Except TracefileError Progress :=
  match Statement.read line with
  | .blank => .ok p
  | .statement (.source path) => do
    let report ← orOverflow p.close?
    return ⟨report, some (path, .empty)⟩
  | .statement .finish =>
    match p.current with
    | none => .error (.malformed number .finishOutsideRecord)
    | some _ => do
      let report ← orOverflow p.close?
      return ⟨report, none⟩
  | .statement (.remark _ _) => .ok p
  | .statement s =>
    match p.current with
    | none => .error (.malformed number .dataBeforeSource)
    | some (path, record) => do
      let record ← orOverflow (record? record s)
      return ⟨p.report, some (path, record)⟩
  | .broken .untagged => .error (.malformed number .untagged)
  | .broken fault =>
    match p.current with
    | none => .error (.malformed number .dataBeforeSource)
    | some _ => .error (.malformed number fault)

/-- The reading after lines numbered from `number`. -/
def steps (number : Nat) (p : Progress) : List (List Char) → Except TracefileError Progress
  | [] => .ok p
  | line :: rest => do
    let p ← p.step number line
    p.steps (number + 1) rest

end Progress

/-- The report a tracefile holds. A last record need not be ended. -/
def Report.parse (text : String) : Except TracefileError Report := do
  let p ← Progress.start.steps 1 (Text.lines text.toList)
  Progress.orOverflow p.close?

/-! ## Writing -/

/-- The functions of a file in the order they are written: by line, then by name. -/
def FileRecord.functionsByLine (r : FileRecord) : List (String × FunctionRecord) :=
  r.functions.entries.mergeSort fun a b =>
    ((compare a.2.line b.2.line).then (compare a.1 b.1)).isLE

/-- A total, as a remark. -/
def Statement.total (tag : String) (n : Nat) : Statement := .remark tag (number n)

/-- The statements a file is written as. -/
def FileRecord.statements (path : Path) (r : FileRecord) : List Statement :=
  let counts := r.counts
  [.remark "TN" "", .source path] ++
    r.functionsByLine.map (fun f => .functionLine f.2.line f.1) ++
    r.functionsByLine.map (fun f => .functionHits f.2.hits f.1) ++
    [.total "FNF" counts.functionsFound, .total "FNH" counts.functionsHit] ++
    r.branches.entries.map (fun b => .branchTaken b.1 b.2) ++
    [.total "BRF" counts.branchesFound, .total "BRH" counts.branchesHit] ++
    r.lines.entries.map (fun l => .lineHits l.1 l.2) ++
    [.total "LF" counts.linesFound, .total "LH" counts.linesHit, .finish]

namespace Report

/-- The statements a report is written as. -/
def statements (r : Report) : List Statement :=
  r.files.entries.flatMap fun e => e.2.statements e.1

/-- The pieces a report is written as, in order. -/
def pieces (r : Report) : List String := r.statements.flatMap Statement.pieces

/-- The tracefile of a report. -/
def render (r : Report) : String := String.join r.pieces

/-- The octets of the tracefile of a report. -/
def octets (r : Report) : List UInt8 := Text.octets r.render

/-- The SHA-256 digest of the tracefile, in hexadecimal notation. -/
def digest (r : Report) : String := Digest.sha256Hex r.octets

end Report

/-! ## Writing under a limit -/

/-- A writer with a limit: what it has taken, and the octets it still has room for. -/
structure Bounded where
  taken : String
  room : Nat
  deriving DecidableEq, Repr

/-- The writer with one more piece. -/
def Bounded.take (w : Bounded) (piece : String) : Bounded :=
  ⟨w.taken ++ piece, w.room - piece.utf8ByteSize⟩

/-- Work with a writer. A piece that the writer refuses ends it. -/
abbrev Writing := ExceptT Unit (StateM Bounded)

/-- Writes a piece, if there is room for it. -/
def Writing.piece (p : String) : Writing Unit := do
  let w ← get
  if p.utf8ByteSize ≤ w.room then set (w.take p) else throw ()

/-- Writes a statement piece by piece. -/
def Statement.emit (s : Statement) : Writing Unit := s.pieces.forM Writing.piece

/-- Writes what is known of a file, one list after the other with its totals. -/
def FileRecord.emit (path : Path) (r : FileRecord) : Writing Unit := do
  let counts := r.counts
  (Statement.remark "TN" "").emit
  (Statement.source path).emit
  r.functionsByLine.forM fun f => (Statement.functionLine f.2.line f.1).emit
  r.functionsByLine.forM fun f => (Statement.functionHits f.2.hits f.1).emit
  (Statement.total "FNF" counts.functionsFound).emit
  (Statement.total "FNH" counts.functionsHit).emit
  r.branches.entries.forM fun b => (Statement.branchTaken b.1 b.2).emit
  (Statement.total "BRF" counts.branchesFound).emit
  (Statement.total "BRH" counts.branchesHit).emit
  r.lines.entries.forM fun l => (Statement.lineHits l.1 l.2).emit
  (Statement.total "LF" counts.linesFound).emit
  (Statement.total "LH" counts.linesHit).emit
  Statement.finish.emit

/-- Writes a report into `room` octets: whether it fitted, and what was written. -/
def Report.writeTo (r : Report) (room : Nat) : Bool × String :=
  let work : Writing Unit := r.files.entries.forM fun e => e.2.emit e.1
  let (complete, w) := StateT.run (ExceptT.run work) ⟨"", room⟩
  (complete.isOk, w.taken)

end CoverageRun.Coverage
