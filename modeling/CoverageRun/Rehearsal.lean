/-
Rehearsed runs: commands are answered from a script, and uploads are kept instead of sent.
-/
import CoverageRun.Files.Operations
import CoverageRun.Host

namespace CoverageRun.Rehearsal

open Files

/-! ## Planting -/

/-- Puts an entry at a path and makes the directories on the way there. -/
def plant (t : Tree) (p : Path) (e : Entry) : Except Files.Fault Tree := do
  let t ←
    match p.parent? with
    | some q => t.makeDirectories q
    | none => pure t
  match e with
  | .directory => t.makeDirectories p
  | .file bytes executable =>
    let t ← t.write p bytes
    match t.find true p with
    | .ok (loc, .file bytes _) => return t.put loc (.file bytes executable)
    | _ => return t
  | .link target => (t.discard p).makeLink p target

/-- Puts entries at paths, one after another. -/
def plantAll (t : Tree) (entries : List (Path × Entry)) : Except Files.Fault Tree :=
  entries.foldlM (fun t e => plant t e.1 e.2) t

/-! ## Scripts -/

/-- The answer to commands that begin with certain words. In order: files are written below the
command's directory, the output asked for with `-o` is written, entries are planted; then the
command never ends, or fails to run, or ends as it is told. -/
structure Rule where
  words : List String
  exitCode : Int
  stdout : String
  stderr : String
  files : List (Path × String)
  output : Option String
  entries : List (Path × Entry)
  hangs : Bool
  failure : Option Failure
  success : Bool
  deriving Repr

/-- The answer to a command without a rule: it passes and writes nothing. -/
def Rule.silent : Rule := ⟨[], 0, "", "", [], none, [], false, none, true⟩

/-- A path as seen from the directory of a command. -/
def seenFrom (dir : Option Path) (p : Path) : Path :=
  match dir with
  | some d => if p.isAbsolute then p else d.join p.text
  | none => p

/-- The files a rule writes for a command. -/
def Rule.writes (r : Rule) (c : Command) : List (Path × String) :=
  r.files ++
    match r.output, c.outputPath? with
    | some contents, some path => [(⟨path⟩, contents)]
    | _, _ => []

/-- Writes files one after another; those written before a fault stay. -/
def writeFiles (t : Tree) : List (Path × String) → Option Files.Fault × Tree
  | [] => (none, t)
  | (p, s) :: rest =>
    let made :=
      match p.parent? with
      | some q => t.makeDirectories q
      | none => .ok t
    match made with
    | .error e => (some e, t)
    | .ok t =>
      match t.writeText p s with
      | .error e => (some e, t)
      | .ok t => writeFiles t rest

/-- What a rule makes of a command. -/
def Rule.answer (r : Rule) (c : Command) (t : Tree) : Answer Completion × Tree :=
  match writeFiles t ((r.writes c).map fun f => (seenFrom c.directory f.1, f.2)) with
  | (some e, t) => (.failed (.ofFiles e), t)
  | (none, t) =>
    match plantAll t r.entries with
    | .error e => (.failed (.ofFiles e), t)
    | .ok t =>
      if r.hangs then (.unending, t)
      else
        match r.failure with
        | some f => (.failed f, t)
        | none =>
          let stderr := if r.exitCode = 0 then "" else r.stderr
          (.completed ⟨c.name, r.exitCode, r.stdout, stderr, r.success⟩, t)

/-- The answer of the first rule whose words a command begins with. -/
def answer (rules : List Rule) (c : Command) (t : Tree) : Answer Completion × Tree :=
  ((rules.find? fun r => c.startsWith r.words).getD .silent).answer c t

/-! ## Uploads -/

/-- An upload that was kept. -/
structure Upload where
  report : Coverage.Report
  origin : Origin
  deriving Repr

/-- The text of an upload. -/
def Upload.body (u : Upload) : String := u.report.render

/-- Uploads tried and kept so far, and the reason every one fails for, if they do. -/
structure Uploads where
  attempts : Nat
  kept : List Upload
  refusal : Option String
  deriving Repr, Inhabited

/-- Keeps an upload, unless every one fails. -/
def Uploads.take (u : Uploads) (report : Coverage.Report) (origin : Origin) :
    Answer Upload.Receipt × Uploads :=
  let u := { u with attempts := u.attempts + 1 }
  match u.refusal with
  | some reason => (.failed (.publish reason), u)
  | none =>
    (.completed ⟨some s!"memory://{origin.slug}/{origin.commit}",
        UInt64.ofNat (Text.octets report.render).length⟩,
      { u with kept := u.kept ++ [⟨report, origin⟩] })

/-- The host that answers from a script and keeps uploads. -/
def host (rules : List Rule) : Host Uploads where
  run c t u :=
    let (a, t) := answer rules c t
    (a, t, u)
  publish report _ origin u := u.take report origin

end CoverageRun.Rehearsal
