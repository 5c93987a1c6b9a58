/-
Taking JSON trees apart into values of known types. A reading goes through the tree in the order of
the text, so the first fault in that order is the one reported. A record may be given as an object
or as an array of its fields in order.
-/
import CoverageRun.Json.Node
import CoverageRun.Json.Value
import CoverageRun.Store.OrderedMap

namespace CoverageRun.Json

/-- What reading gives: a value, or the first fault. -/
abbrev Reading (α : Type) := Except Cause α

/-! ## Passing over -/

mutual

/-- Passes over a value that nobody wants. -/
def Node.skip : Node → Reading Unit
  | .array items => items.skip
  | .object members => members.skip
  | .broken _ _ skipped => .error skipped
  | _ => .ok ()

def Items.skip : Items → Reading Unit
  | .closed => .ok ()
  | .stop _ cause => .error cause
  | .item v rest => do
    v.skip
    rest.skip

def Members.skip : Members → Reading Unit
  | .closed => .ok ()
  | .stop _ _ skipped => .error skipped
  | .unkeyed _ => .error .malformed
  | .member _ v rest | .strayMember v rest => do
    v.skip
    rest.skip

end

/-! ## Whole values -/

mutual

/-- Reads a value of any kind, with all that is in it; `depth` tells how many more arrays and
objects may stand in one another. -/
def Node.readNested (depth : Nat) : Node → Reading Unit
  | .array items => if depth = 0 then .error .malformed else items.readNested (depth - 1)
  | .object members => if depth = 0 then .error .malformed else members.readNested (depth - 1)
  | .broken _ read _ => .error read
  | .unreadable => .error .malformed
  | _ => .ok ()

def Items.readNested (depth : Nat) : Items → Reading Unit
  | .closed => .ok ()
  | .stop _ cause => .error cause
  | .item v rest => do
    v.readNested depth
    rest.readNested depth

def Members.readNested (depth : Nat) : Members → Reading Unit
  | .closed => .ok ()
  | .stop _ read _ => .error read
  | .unkeyed _ | .strayMember _ _ => .error .malformed
  | .member _ v rest => do
    v.readNested depth
    rest.readNested depth

end

/-- How deep arrays and objects may stand in one another where any value is read. -/
def nestingLimit : Nat := 127

/-- Reads a value of any kind, with all that is in it. -/
def Node.readWhole (v : Node) : Reading Unit := v.readNested nestingLimit

/-! ## Single values -/

/-- The fault of a value of the wrong kind. A simple value is read to its end first; an array or
object is not looked into. -/
def Node.mismatch : Node → Cause
  | .broken _ read _ => read
  | .unreadable => .malformed
  | _ => .mismatched

namespace Node

def readText : Node → Reading String
  | .text s => .ok s
  | v => .error v.mismatch

/-- A whole number below `bound`. -/
def readBelow (bound : Nat) : Node → Reading Nat
  | .integer i => if 0 ≤ i ∧ i.toNat < bound then .ok i.toNat else .error .mismatched
  | v => .error v.mismatch

/-- A whole number of 64 bits. -/
def readWord (v : Node) : Reading UInt64 := (v.readBelow UInt64.size).map UInt64.ofNat

def readBool : Node → Reading Bool
  | .bool b => .ok b
  | v => .error v.mismatch

def readNull : Node → Reading Unit
  | .null => .ok ()
  | v => .error v.mismatch

/-- Null, or a value. -/
def readOptional {α : Type} (read : Node → Reading α) : Node → Reading (Option α)
  | .null => .ok none
  | v => (read v).map some

end Node

/-! ## Lists and maps -/

/-- Reads items in order. -/
def Items.readAll {α : Type} (read : Node → Reading α) : Items → Reading (List α)
  | .closed => .ok []
  | .stop _ cause => .error cause
  | .item v rest => do
    let a ← read v
    let as ← rest.readAll read
    return a :: as

/-- Reads members in order. -/
def Members.readAll {α : Type} (read : Node → Reading α) : Members → Reading (List (String × α))
  | .closed => .ok []
  | .stop _ cause _ => .error cause
  | .unkeyed _ => .error .malformed
  | .member k v rest => do
    let a ← read v
    let as ← rest.readAll read
    return (k, a) :: as
  | .strayMember _ _ => .error .malformed

namespace Node

def readList {α : Type} (read : Node → Reading α) : Node → Reading (List α)
  | .array items => items.readAll read
  | v => .error v.mismatch

def readTexts (v : Node) : Reading (List String) := v.readList readText

/-- An object read as a map; of two members with one key the later counts. -/
def readMap {α : Type} (read : Node → Reading α) : Node → Reading (Store.OrderedMap String α)
  | .object members => (members.readAll read).map .ofList
  | v => .error v.mismatch

end Node

/-! ## Records -/

/-- What stands for a field that is missing. -/
inductive Absence where
  /-- The value the record has to begin with. -/
  | fallback
  /-- Nothing: an object may leave the field out, an array of fields may not. -/
  | nothing
  /-- The field must be there. -/
  | fault
  deriving DecidableEq, Repr

/-- A field of a record: its name, what its absence means, and how its value is put in. -/
structure Field (R : Type) where
  name : String
  absence : Absence
  put : R → Node → Reading R

/-- A field whose value is read by `read` and put in by `set`. -/
def Field.of {R α : Type} (name : String) (absence : Absence) (read : Node → Reading α)
    (set : R → α → R) : Field R :=
  ⟨name, absence, fun r v => (read v).map (set r)⟩

/-- The end of a record given as an array: what follows its last field must be the end. -/
def Items.finish : Items → Reading Unit
  | .closed => .ok ()
  | .stop false cause => .error cause
  | _ => .error .malformed

/-- Reads a record from an array of its fields. -/
def Items.readRecord {R : Type} (r : R) : List (Field R) → Items → Reading R
  | [], items => do
    items.finish
    return r
  | f :: fs, .item v rest => do
    let r ← f.put r v
    rest.readRecord r fs
  | _ :: _, .stop _ cause => .error cause
  | fs, .closed => if fs.all fun f => f.absence == .fallback then .ok r else .error .mismatched

/-- Reads a record from an object. `seen` holds the names met so far: none may come twice. Members
of other names are passed over. -/
def Members.readRecord {R : Type} (fields : List (Field R)) (seen : List String) (r : R) :
    Members → Reading R
  | .closed =>
    if fields.all fun f => f.absence != .fault || seen.contains f.name then .ok r
    else .error .mismatched
  | .stop _ cause _ => .error cause
  | .unkeyed _ => .error .malformed
  | .strayMember _ _ => .error .malformed
  | .member k v rest =>
    match fields.find? fun f => f.name == k with
    | none => do
      v.skip
      rest.readRecord fields seen r
    | some f =>
      if seen.contains k then .error .mismatched
      else do
        let r ← f.put r v
        rest.readRecord fields (k :: seen) r

/-- Reads a record that begins as `start` and takes its fields one by one. -/
def Node.readRecord {R : Type} (fields : List (Field R)) (start : R) : Node → Reading R
  | .object members => members.readRecord fields [] start
  | .array items => items.readRecord start fields
  | v => .error v.mismatch

/-! ## Choices -/

/-- A choice: a name, and what reads the value that comes with it. -/
structure Choice (α : Type) where
  name : String
  /-- What the bare name stands for, where it stands for anything. -/
  bare : Option α
  read : Node → Reading α

/-- A choice that is a bare name; as a member its value is null. -/
def Choice.word {α : Type} (name : String) (a : α) : Choice α :=
  ⟨name, some a, fun v => v.readNull.map fun _ => a⟩

/-- Reads one of several choices: a name, or an object with the name as its only member. -/
def Node.readChoice {α : Type} (choices : List (Choice α)) : Node → Reading α
  | .text s =>
    match choices.find? fun c => c.name == s with
    | some ⟨_, some a, _⟩ => .ok a
    | _ => .error .mismatched
  | .object (.member k v rest) =>
    match choices.find? fun c => c.name == k with
    | none => .error .mismatched
    | some c => do
      let a ← c.read v
      match rest with
      | .closed => return a
      | .stop false cause _ => throw cause
      | _ => throw .malformed
  | .object (.stop _ cause _) => .error cause
  | .object _ => .error .malformed
  | .broken chosen _ _ => .error chosen
  | _ => .error .malformed

/-! ## Whole texts -/

/-- Reads a whole text, after which nothing but blanks may come. -/
def readDocument {α : Type} (read : Node → Reading α) (s : String) : Reading α := do
  let d := Document.read s
  let a ← read d.root
  if d.trailing then throw .malformed
  return a

end CoverageRun.Json
