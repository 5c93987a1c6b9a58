/-
Where the streams of a command lead, as redirections say.
-/
import CoverageRun.Shell.Expansion
import CoverageRun.Shell.Programs.Texts

namespace CoverageRun.Shell

open Files Text

/-! ## Opening -/

/-- What a redirection makes a stream lead to: something new, what another stream leads to, or
nothing at all. -/
inductive Target where
  | channel (c : Channel)
  | same (stream : Stream)
  | closed
  deriving DecidableEq, Repr

/-- The targets at paths that are no files of a tree. -/
def device? (path : String) : Option Target :=
  match path with
  | "/dev/null" => some (.channel .nowhere)
  | "/dev/stdin" | "/dev/fd/0" => some (.same .input)
  | "/dev/stdout" | "/dev/fd/1" => some (.same .output)
  | "/dev/stderr" | "/dev/fd/2" => some (.same .errors)
  | _ => none

/-- Opens a file to be read. -/
def openRead (t : Tree) (path : String) : Except Fault Target := do
  match device? path with
  | some target => return target
  | none => return .channel (.file (← t.find true ⟨path⟩).1 0 false)

/-- Opens a file to be written, emptied if it is to be `fresh`. -/
def openWrite (t : Tree) (path : String) (fresh atEnd : Bool) : Except Fault (Target × Tree) := do
  match device? path with
  | some target => return (target, t)
  | none =>
    let p : Path := ⟨path⟩
    let t ← if fresh || !t.isPresent p then t.write p [] else pure t
    match ← t.find true p with
    | (loc, .file _ _) => return (.channel (.file loc 0 atEnd), t)
    | _ => throw .isDirectory

/-- The wording of a fault when a file is opened. -/
def openText (missing : String) : Fault → String
  | .missing | .notDirectory => missing
  | f => faultText f

/-- The target of a redirection to a file, and the tree behind it, or the message of a failure. -/
def openTarget (s : Session) (direction : Direction) (path : String) :
    Except String (Target × Tree) :=
  let written (fresh atEnd : Bool) : Except String (Target × Tree) :=
    (openWrite s.tree path fresh atEnd).mapError fun f =>
      let reason := openText "Directory nonexistent" f
      s!"cannot create {path}: {reason}"
  let isKept := s.has 'C' && (s.tree.find true ⟨path⟩ matches .ok (_, .file _ _))
  match direction with
  | .read =>
    match openRead s.tree path with
    | .ok target => .ok (target, s.tree)
    | .error f =>
      let reason := openText "No such file" f
      .error s!"cannot open {path}: {reason}"
  | .write => if isKept then .error s!"cannot create {path}: File exists" else written true false
  | .replace => written true false
  | .append => written false true
  | .both => written false false
  | .here => .ok (.channel (.source (octets path)), s.tree)
  | .copy =>
    match path.toList with
    | ['-'] => .ok (.closed, s.tree)
    | cs => .ok (.same ((String.ofList cs).toNat?.getD 0), s.tree)

/-! ## Redirecting -/

/-- A redirection whose target is known. -/
structure Connection where
  stream : Stream
  direction : Direction
  target : String
  deriving Repr

/-- Whether a text names a stream, or none. -/
def isStreamName (text : String) : Bool :=
  match text.toList with
  | ['-'] => true
  | [c] => isDigit c
  | _ => false

/-- Expands the target of a redirection. -/
def Runner.connection (r : Runner) (d : Redirection) : Running Connection := do
  match d with
  | .mk stream direction target =>
    match direction with
    | .here => return ⟨stream, direction, ← r.lines target⟩
    | .copy =>
      let text ← r.text target
      if isStreamName text then return ⟨stream, direction, text⟩
      else
        modify fun s => { s with task := none }
        Running.fail "Syntax error: Bad fd number"
    | _ => return ⟨stream, direction, ← r.text target⟩

/-- Makes a stream lead where a redirection says. -/
def connect (c : Connection) : Running Unit := do
  let s ← get
  match openTarget s c.direction c.target with
  | .error message => Running.fail message
  | .ok (target, tree) =>
    let s := { s with tree }
    match target with
    | .channel channel => set (s.lead c.stream channel)
    | .closed => set { s with streams := s.streams.filter fun n _ => n != c.stream }
    | .same stream =>
      match s.streams.get? stream with
      | some n => set { s with streams := s.streams.insert c.stream n }
      | none => Running.fail s!"{stream}: Bad file descriptor"

/-- Makes streams lead where redirections say, one after another: whether that succeeds. -/
def connectAll (cs : List Connection) : Running Bool := do
  try
    cs.forM connect
    return true
  catch
    | .failed => return false
    | stop => throw stop

/-- Runs work with streams that lead elsewhere, and has them lead back after it. -/
def Runner.redirected (r : Runner) (ds : List Redirection) (work : Running Unit) :
    Running Unit := do
  let cs ← ds.mapM r.connection
  let s ← get
  let first := Running.nextChannel s
  try
    if ← connectAll cs then work
  finally
    modify fun t => Running.swept first { t with streams := s.streams }

end CoverageRun.Shell
