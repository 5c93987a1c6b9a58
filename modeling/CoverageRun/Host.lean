/-
The world that a run works in: a file tree, a host that runs commands and takes uploads, and the
commands issued so far. What a host does is open: it is any function of what it is given and of a
state of its own.

A run may have a limit of time. It can be up while the host is at a command or an upload, and while
the work waits for a file operation. Such an operation is not called back: it lands whenever it does,
also among the removals by which the run is cleaned up, or never.
-/
import CoverageRun.Command
import CoverageRun.Files.Operations
import CoverageRun.Glob.Pattern
import CoverageRun.Origin
import CoverageRun.Upload.Credential
import CoverageRun.Upload.Settings

namespace CoverageRun

open Files

/-! ## Hosts -/

/-- What comes of asking a host for something. -/
inductive Answer (α : Type) where
  | completed (a : α)
  | failed (f : Failure)
  /-- The host is still at it when all time is up. -/
  | unending
  deriving Repr

/-- When a file operation lands that is still under way when all time is up. -/
inductive Landing where
  /-- After so many of the removals that follow. -/
  | after (removals : Nat)
  | never
  deriving DecidableEq, Repr

/-- A file operation that is still under way when all time is up. -/
structure Late where
  operation : Operation
  landing : Landing
  deriving Repr

/-- A host that runs commands and takes uploads. Its state and the tree after a command may be
anything, whatever the command comes to. -/
structure Host (σ : Type) where
  run : Command → Tree → σ → Answer Completion × Tree × σ
  publish : Coverage.Report → Credential → Origin → σ → Answer Upload.Receipt × σ
  /-- Whether all time is up while a file operation is under way, and when it lands then. -/
  overtakes : Operation → Tree → σ → Option Landing := fun _ _ _ => none
  /-- The reason for which no set of patterns can be made of these, if there is one. -/
  refuses : List Glob.Pattern → Option String := fun _ => none

/-- The world as a run sees it. -/
structure World (σ : Type) where
  tree : Tree
  host : σ
  /-- The commands issued so far, the first one first. -/
  issued : List Command

/-- Why work stops before its end. -/
inductive Halt where
  | failure (f : Failure)
  /-- All time is up, and the host is still at what it was asked for, or a file operation at what it
  does. -/
  | unending (late : Option Late)
  /-- Two counts do not fit into 64 bits together: the program itself ends. -/
  | overflow
  deriving Repr

/-- Work that changes the world, also where it stops before its end. -/
abbrev Action (σ : Type) := ExceptT Halt (StateM (World σ))

namespace Action

variable {σ : Type}

/-- Stops with a failure. -/
def fail {α : Type} (f : Failure) : Action σ α := throw (.failure f)

/-- Goes on with a value, or stops with the failure it stands for. -/
def ofExcept {α ε : Type} (failure : ε → Failure) : Except ε α → Action σ α
  | .ok a => pure a
  | .error e => fail (failure e)

/-- The file tree as it is now. -/
def tree : Action σ Tree := do return (← get).tree

/-- Replaces the file tree. -/
def setTree (t : Tree) : Action σ Unit := modify fun w => { w with tree := t }

/-- Changes files, where that does not fail. -/
def changeFiles (change : Tree → Except Files.Fault Tree) : Action σ Unit := do
  setTree (← ofExcept Failure.ofFiles (change (← tree)))

/-- Waits for a file operation, unless all time is up before. -/
def await (h : Host σ) (op : Operation) : Action σ Unit := do
  let w ← get
  match h.overtakes op w.tree w.host with
  | none => pure ()
  | some landing => throw (.unending (some ⟨op, landing⟩))

/-- Does a file operation and waits for it. -/
def perform (h : Host σ) (op : Operation) : Action σ Unit := do
  await h op
  changeFiles op.apply

/-- Work that ends with an answer. -/
def ofAnswer {α : Type} : Answer α → Action σ α
  | .completed a => pure a
  | .failed f => fail f
  | .unending => throw (.unending none)

/-- Issues a command. -/
def issue (h : Host σ) (c : Command) : Action σ Completion := do
  let w ← get
  let (answer, tree, host) := h.run c w.tree w.host
  set (World.mk tree host (w.issued ++ [c]))
  ofAnswer answer

/-- Uploads a report. -/
def upload (h : Host σ) (r : Coverage.Report) (credential : Credential) (origin : Origin) :
    Action σ Upload.Receipt := do
  let w ← get
  let (answer, host) := h.publish r credential origin w.host
  set { w with host }
  ofAnswer answer

end Action

end CoverageRun
