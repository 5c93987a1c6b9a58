/-
The statements of a tracefile, one a line: a source file begins or ends, a line, branch or function
is counted, or something is said that a report does not keep. Each is written as pieces of text and
read back from a line.
-/
import CoverageRun.Coverage.Record
import CoverageRun.Numeral.Decimal
import CoverageRun.Path

namespace CoverageRun.Coverage

open Text Numeral

/-! ## Statements -/

/-- One line of a tracefile. -/
inductive Statement where
  /-- The record of a source file begins. -/
  | source (path : Path)
  /-- The record ends. -/
  | finish
  | lineHits (line : UInt32) (hits : UInt64)
  | branchTaken (id : BranchId) (taken : Option UInt64)
  | functionLine (line : UInt32) (name : String)
  | functionHits (hits : UInt64) (name : String)
  /-- A tag that carries nothing a report keeps: test names, totals, extensions. -/
  | remark (tag value : String)
  deriving DecidableEq, Repr, Inhabited

namespace Statement

/-- A whole number as a piece of text. -/
def number (n : Nat) : String := String.ofList (write n)

/-- The pieces a statement is written as, the line feed included. -/
def pieces : Statement → List String
  | .source path => ["SF:", path.text, "\n"]
  | .finish => ["end_of_record\n"]
  | .lineHits line hits => ["DA:", number line.toNat, ",", number hits.toNat, "\n"]
  | .branchTaken id taken =>
    ["BRDA:", number id.line.toNat, ",", number id.block.toNat, ",", number id.branch.toNat, ",",
      match taken with
      | some n => number n.toNat
      | none => "-",
      "\n"]
  | .functionLine line name => ["FN:", number line.toNat, ",", name, "\n"]
  | .functionHits hits name => ["FNDA:", number hits.toNat, ",", name, "\n"]
  | .remark tag value => [tag, ":", value, "\n"]

/-! ## Faults -/

/-- The numbers a statement may carry besides its hit count. -/
inductive Field where
  | hitLine
  | branchLine
  | branchBlock
  | branchNumber
  | functionLine
  deriving DecidableEq, Repr

/-- The name of a field, as messages give it. -/
def Field.text : Field → String
  | .hitLine => "DA line"
  | .branchLine => "BRDA line"
  | .branchBlock => "BRDA block"
  | .branchNumber => "BRDA branch"
  | .functionLine => "FN line"

/-- What can be wrong with a line. -/
inductive Fault where
  | finishOutsideRecord
  | untagged
  | dataBeforeSource
  | badNumber (field : Field) (text : String)
  | missingHits
  | badHits (text : String)
  | branchNeedsFour
  | functionNeedsName
  | callsNeedName
  deriving DecidableEq, Repr

/-- The wording of a fault. -/
def Fault.text : Fault → String
  | .finishOutsideRecord => "end_of_record outside a record"
  | .untagged => "expected <TAG>:<value>"
  | .dataBeforeSource => "data before SF"
  | .badNumber field text => s!"invalid {field.text}: `{text}`"
  | .missingHits => "missing hit count"
  | .badHits text => s!"invalid hit count: `{text}`"
  | .branchNeedsFour => "BRDA needs four fields"
  | .functionNeedsName => "FN needs <line>,<name>"
  | .callsNeedName => "FNDA needs <hits>,<name>"

/-! ## Fields -/

/-- A number of 32 bits with blanks around it. -/
def readNumber (field : Field) (cs : List Char) : Except Fault UInt32 :=
  match read32 (trim cs) with
  | some n => .ok n
  | none => .error (.badNumber field (String.ofList cs))

/-- A hit count with blanks around it: a whole number, or any finite decimal number, cut off at
zero and at the greatest count. -/
def readHits (cs : List Char) : Except Fault UInt64 :=
  let cs := trim cs
  match read64 cs with
  | some n => .ok n
  | none =>
    match (Decimal.read cs).bind Decimal.toCount with
    | some n => .ok n
    | none => .error (.badHits (String.ofList cs))

/-- How often a branch was taken; a dash stands for a branch never reached. -/
def readTaken (cs : List Char) : Except Fault (Option UInt64) :=
  if cs = ['-'] then .ok none else (readHits cs).map some

/-- `line,hits`; further fields do not count. -/
def readLine (value : List Char) : Except Fault Statement := do
  match split ',' value with
  | line :: rest =>
    let line ← readNumber .hitLine line
    match rest with
    | hits :: _ => return .lineHits line (← readHits hits)
    | [] => throw .missingHits
  | [] => throw .missingHits

/-- `line,block,branch,taken`. -/
def readBranch (value : List Char) : Except Fault Statement := do
  match split ',' value with
  | [line, block, branch, taken] =>
    let line ← readNumber .branchLine line
    let block ← readNumber .branchBlock block
    let branch ← readNumber .branchNumber branch
    return .branchTaken ⟨line, block, branch⟩ (← readTaken taken)
  | _ => throw .branchNeedsFour

/-- `line,name`; the name may hold commas. -/
def readFunction (value : List Char) : Except Fault Statement := do
  match cut ',' value with
  | some (line, name) => return .functionLine (← readNumber .functionLine line) (String.ofList name)
  | none => throw .functionNeedsName

/-- `hits,name`; the name may hold commas. -/
def readCalls (value : List Char) : Except Fault Statement := do
  match cut ',' value with
  | some (hits, name) => return .functionHits (← readHits hits) (String.ofList name)
  | none => throw .callsNeedName

/-! ## Lines -/

/-- What a line is found to be. -/
inductive Reading where
  | blank
  | statement (s : Statement)
  | broken (fault : Fault)
  deriving DecidableEq, Repr

/-- A reading from the outcome of reading a statement's fields. -/
def Reading.ofFields : Except Fault Statement → Reading
  | .ok s => .statement s
  | .error fault => .broken fault

/-- Reads a line that is neither blank nor the beginning or end of a record. -/
def readTagged (line : List Char) : Reading :=
  match cut ':' line with
  | none => .broken .untagged
  | some (tag, value) =>
    if tag = "DA".toList then .ofFields (readLine value)
    else if tag = "BRDA".toList then .ofFields (readBranch value)
    else if tag = "FN".toList then .ofFields (readFunction value)
    else if tag = "FNDA".toList then .ofFields (readCalls value)
    else .statement (.remark (String.ofList tag) (String.ofList value))

/-- Reads a line; blanks around it do not count. -/
def read (line : List Char) : Reading :=
  let line := trim line
  if line = [] then .blank
  else
    match after? "SF:".toList line with
    | some path => .statement (.source ⟨String.ofList path⟩)
    | none => if line = "end_of_record".toList then .statement .finish else readTagged line

end Statement

end CoverageRun.Coverage
