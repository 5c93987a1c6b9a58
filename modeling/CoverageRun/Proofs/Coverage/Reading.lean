/-
How a tracefile is read, line by line: a line is rejected by what it is read as and by whether a
record is open, and a line that is not rejected changes the report and the open record in one way,
unless a count overflows.
-/
import CoverageRun.Coverage.Tracefile

namespace CoverageRun.Coverage

open Statement (Reading Fault)

/-! ## Rejected lines -/

/-- The fault for which a line is rejected, where a record is open or none is. -/
def Statement.Reading.fault? (isOpen : Bool) : Reading → Option Fault
  | .blank => none
  | .statement (.source _) | .statement (.remark _ _) => none
  | .statement .finish => if isOpen then none else some .finishOutsideRecord
  | .statement _ => if isOpen then none else some .dataBeforeSource
  | .broken .untagged => some .untagged
  | .broken fault => if isOpen then some fault else some .dataBeforeSource

/-- The file whose record is open after a line. -/
def Statement.Reading.opens (opened : Option Path) : Reading → Option Path
  | .statement (.source path) => some path
  | .statement .finish => none
  | _ => opened

/-- The first rejected line, by its number, and the fault. -/
def firstFault? (opened : Option Path) (number : Nat) : List Reading → Option (Nat × Fault)
  | [] => none
  | r :: rest =>
    match r.fault? opened.isSome with
    | some fault => some (number, fault)
    | none => firstFault? (r.opens opened) (number + 1) rest

/-! ## Lines that are not rejected -/

namespace Progress

/-- The file whose record is open. -/
def opened (p : Progress) : Option Path := p.current.map Prod.fst

/-- The reading after a line that is not rejected; `none` if a count overflows. -/
def advance? (p : Progress) : Reading → Option Progress
  | .statement (.source path) => p.close?.map fun report => ⟨report, some (path, .empty)⟩
  | .statement .finish => p.close?.map fun report => ⟨report, none⟩
  | .statement s =>
    match p.current with
    | none => some p
    | some (path, record) => (record? record s).map fun record => ⟨p.report, some (path, record)⟩
  | _ => some p

theorem orOverflow_map {α β : Type} (f : α → β) (o : Option α) :
    orOverflow (o.map f) = (do let a ← orOverflow o; return f a) := by
  cases o <;> rfl

/-- One line: it is rejected, or it is applied. -/
theorem step_eq (number : Nat) (p : Progress) (line : List Char) :
    p.step number line =
      match (Statement.read line).fault? p.opened.isSome with
      | some fault => .error (.malformed number fault)
      | none => orOverflow (p.advance? (Statement.read line)) := by
  rw [show p.opened.isSome = p.current.isSome from Option.isSome_map]
  obtain ⟨report, current⟩ := p
  unfold step
  cases Statement.read line with
  | blank => rfl
  | broken fault => cases fault <;> cases current <;> rfl
  | statement s =>
    cases s with
    | source path => simp only [Reading.fault?, advance?, orOverflow_map]
    | finish => cases current <;> simp [Reading.fault?, advance?, orOverflow_map]
    | remark tag value => cases current <;> rfl
    | _ => cases current <;> simp [Reading.fault?, advance?, orOverflow_map]

theorem steps_append : ∀ (a b : List (List Char)) (number : Nat) (p : Progress),
    p.steps number (a ++ b) = (p.steps number a).bind fun q => q.steps (number + a.length) b
  | [], b, number, p => rfl
  | line :: a, b, number, p => by
    simp only [List.cons_append, steps, List.length_cons]
    cases p.step number line with
    | error e => rfl
    | ok q =>
      simp only [bind, Except.bind]
      rw [steps_append a b (number + 1) q, show number + 1 + a.length = number + (a.length + 1) by omega]
      rfl

theorem opened_advance? {p q : Progress} {r : Reading} (h : p.advance? r = some q) :
    q.opened = r.opens p.opened := by
  cases r with
  | blank => cases h; rfl
  | broken fault => cases h; rfl
  | statement s =>
    cases s with
    | source path => obtain ⟨_, _, rfl⟩ := Option.map_eq_some_iff.1 h; rfl
    | finish => obtain ⟨_, _, rfl⟩ := Option.map_eq_some_iff.1 h; rfl
    | _ =>
      obtain ⟨report, _ | ⟨path, record⟩⟩ := p
      · cases h; rfl
      · simp only [advance?] at h
        obtain ⟨_, _, rfl⟩ := Option.map_eq_some_iff.1 h
        rfl

end Progress

end CoverageRun.Coverage
