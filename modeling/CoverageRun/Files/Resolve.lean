/-
From paths to locations. Symbolic links are followed on the way, and at the end where it is asked
for; no path leads through more than forty of them. The names in a path have a greatest length, its
text as a whole has none.
-/
import CoverageRun.Files.Tree
import CoverageRun.Path

namespace CoverageRun.Files

open Text

/-! ## Faults -/

/-- Why a file operation fails. -/
inductive Fault where
  | missing
  | denied
  | busy
  | present
  | notDirectory
  | isDirectory
  | nameTooLong
  | tooManyLinks
  | nulInPath
  | notText
  deriving DecidableEq, Repr

/-- The wording of a fault. -/
def Fault.message : Fault → String
  | .missing => "No such file or directory (os error 2)"
  | .denied => "Permission denied (os error 13)"
  | .busy => "Device or resource busy (os error 16)"
  | .present => "File exists (os error 17)"
  | .notDirectory => "Not a directory (os error 20)"
  | .isDirectory => "Is a directory (os error 21)"
  | .nameTooLong => "File name too long (os error 36)"
  | .tooManyLinks => "Too many levels of symbolic links (os error 40)"
  | .nulInPath => "file name contained an unexpected NUL byte"
  | .notText => "stream did not contain valid UTF-8"

/-! ## Routes -/

/-- The pieces of a path as they are walked. A slash at the end demands a directory, as if a dot
stood after it. -/
def pieces (text : String) : List String :=
  let names := (split '/' text.toList).filter (· ≠ [])
  let closed := if endsWith ['/'] text.toList && !names.isEmpty then [['.']] else []
  (names ++ closed).map String.ofList

/-- Where a path begins to be walked. -/
def beginning (dir : Location) (text : String) : Location :=
  if (Path.mk text).isAbsolute then [] else dir

/-- The most links that one path may lead through. -/
def linkLimit : Nat := 40

/-- What a path leads to: an entry, or a free name in a directory. -/
inductive Place where
  | entry (loc : Location) (e : Entry)
  | vacant (dir : Location) (name : String)
  deriving DecidableEq, Repr

namespace Tree

/-- Walks from a directory along pieces of a path. Where a link is followed, `leap` goes on from where
the link begins, along its target and what remains of the route. -/
def walkWith (t : Tree) (follow : Bool) (leap : Location → List String → Except Fault Place)
    (dir : Location) : List String → Except Fault Place
  | [] => .ok (.entry dir .directory)
  | name :: rest =>
    if name = "." then walkWith t follow leap dir rest
    else if name = ".." then walkWith t follow leap dir.dropLast rest
    else if 255 < name.utf8ByteSize then .error .nameTooLong
    else
      match t.entry? (dir ++ [name]) with
      | none => if rest = [] then .ok (.vacant dir name) else .error .missing
      | some .directory => walkWith t follow leap (dir ++ [name]) rest
      | some (.file bytes executable) =>
        if rest = [] then .ok (.entry (dir ++ [name]) (.file bytes executable))
        else .error .notDirectory
      | some (.link target) =>
        if rest = [] ∧ follow = false then .ok (.entry (dir ++ [name]) (.link target))
        else leap (beginning dir target) (pieces target ++ rest)

/-- Walks from a directory along pieces of a path, through no more than so many links. -/
def walk (t : Tree) (follow : Bool) : Nat → Location → List String → Except Fault Place
  | 0 => t.walkWith follow fun _ _ => .error .tooManyLinks
  | links + 1 => t.walkWith follow (walk t follow links)

/-- What a path leads to, as seen from the home directory. -/
def place (t : Tree) (follow : Bool) (p : Path) : Except Fault Place :=
  if p.text.toList.contains '\x00' then .error .nulInPath
  else if p.text = "" then .error .missing
  else t.walk follow linkLimit (beginning t.home p.text) (pieces p.text)

/-- The entry a path leads to, and where it stands. -/
def find (t : Tree) (follow : Bool) (p : Path) : Except Fault (Location × Entry) :=
  match t.place follow p with
  | .ok (.entry loc e) => .ok (loc, e)
  | .ok (.vacant _ _) => .error .missing
  | .error e => .error e

/-! ## Questions -/

/-- Whether a path leads to anything. -/
def isPresent (t : Tree) (p : Path) : Bool := (t.find true p).isOk

/-- Whether a path leads to a directory. -/
def isDirectory (t : Tree) (p : Path) : Bool :=
  match t.find true p with
  | .ok (_, .directory) => true
  | _ => false

/-- The path from the root to a location. -/
def pathOf (loc : Location) : Path := ⟨"/" ++ joinText "/" loc⟩

/-- The path from the root, through no link, to what a path leads to. -/
def canonical? (t : Tree) (p : Path) : Option Path :=
  match t.find true p with
  | .ok (loc, _) => some (pathOf loc)
  | .error _ => none

end Tree

end CoverageRun.Files
