/-
Reading and changing files. An operation that fails leaves the tree as it was.
-/
import CoverageRun.Files.Resolve

namespace CoverageRun.Files

namespace Tree

/-! ## Reading -/

/-- The octets of the file a path leads to. -/
def readBytes (t : Tree) (p : Path) : Except Fault (List UInt8) :=
  match t.find true p with
  | .ok (_, .file bytes _) => .ok bytes
  | .ok (_, _) => .error .isDirectory
  | .error e => .error e

/-- The text of the file a path leads to. -/
def readText (t : Tree) (p : Path) : Except Fault String := do
  let bytes ← t.readBytes p
  match Text.ofOctets? bytes with
  | some s => return s
  | none => throw .notText

/-! ## Writing -/

/-- Whether a path ends in a name, with no slash after it. -/
def endsInName (p : Path) : Bool :=
  match (Text.split '/' p.text.toList).getLast? with
  | some piece => piece ≠ [] && piece ≠ ['.'] && piece ≠ ['.', '.']
  | none => false

/-- The path to the directory in which the last piece of a path is looked up. -/
def holder (p : Path) : Path :=
  let route := ((Text.split '/' p.text.toList).filter (· ≠ [])).dropLast.map String.ofList
  ⟨(if p.isAbsolute then "/" else "./") ++ Text.joinText "/" route ++ "/"⟩

/-- Writes a file: anew at a free name, or over the file that is there, which stays executable if it
was. The last link is followed even where it leads to a free name. -/
def write (t : Tree) (p : Path) (bytes : List UInt8) : Except Fault Tree := do
  if p.text ≠ "" ∧ endsInName p = false then
    let _ ← t.find true (holder p)
    throw .isDirectory
  match ← t.place true p with
  | .entry loc (.file _ executable) => return t.put loc (.file bytes executable)
  | .entry _ _ => throw .isDirectory
  | .vacant dir name => return t.put (dir ++ [name]) (.file bytes false)

/-- Writes a file of text. -/
def writeText (t : Tree) (p : Path) (s : String) : Except Fault Tree := t.write p (Text.octets s)

/-! ## Directories -/

/-- Makes a directory at a free name. -/
def makeDirectory (t : Tree) (p : Path) : Except Fault Tree := do
  let bare : Path := if p.text.toList.all (· == '/') then p else
    ⟨String.ofList (p.text.toList.reverse.dropWhile (· == '/')).reverse⟩
  match ← t.place false bare with
  | .entry _ _ => throw .present
  | .vacant dir name => return t.put (dir ++ [name]) .directory

/-- Makes a directory and those on the way to it that are missing; `depth` bounds their number. -/
def makeDirectoriesWithin (depth : Nat) (t : Tree) (p : Path) : Except Fault Tree :=
  if p.text = "" then .ok t
  else
    match t.makeDirectory p with
    | .ok t => .ok t
    | .error .missing =>
      match depth, p.parent? with
      | depth + 1, some q => do
        let t ← makeDirectoriesWithin depth t q
        match t.makeDirectory p with
        | .ok t => return t
        | .error e => if t.isDirectory p then return t else throw e
      | _, _ => .error .missing
    | .error e => if t.isDirectory p then .ok t else .error e

/-- Makes a directory and those on the way to it that are missing. -/
def makeDirectories (t : Tree) (p : Path) : Except Fault Tree :=
  makeDirectoriesWithin p.parts.length t p

/-! ## Removing and renaming -/

/-- Removes a file or a link. -/
def removeFile (t : Tree) (p : Path) : Except Fault Tree := do
  match ← t.find false p with
  | (_, .directory) => throw .isDirectory
  | (loc, _) => return t.erase loc

/-- Removes a file or a link; where that fails nothing happens. -/
def discard (t : Tree) (p : Path) : Tree :=
  match t.removeFile p with
  | .ok t => t
  | .error _ => t

/-- Gives a file or a link another name; a file or a link of that name is replaced. -/
def rename (t : Tree) (source target : Path) : Except Fault Tree := do
  let (loc, e) ← t.find false source
  if endsInName target = false then
    let _ ← t.find true (holder target)
    throw (if target.fileName?.isSome && Text.endsWith ['/'] target.text.toList then .notDirectory
      else .busy)
  match ← t.place false target with
  | .entry _ .directory => throw .isDirectory
  | .entry other _ => if other = loc then return t else return (t.erase loc).put other e
  | .vacant dir name => return (t.erase loc).put (dir ++ [name]) e

/-- Makes a link at a free name. -/
def makeLink (t : Tree) (p : Path) (target : String) : Except Fault Tree := do
  match ← t.place false p with
  | .entry _ _ => throw .present
  | .vacant dir name => return t.put (dir ++ [name]) (.link target)

end Tree

/-! ## Operations that are waited for -/

/-- An operation on files, with all that is said to do it. -/
inductive Operation where
  | read (p : Path)
  | write (p : Path) (bytes : List UInt8)
  | rename (source target : Path)
  deriving Repr

namespace Operation

/-- What an operation makes of a tree. -/
def apply : Operation → Tree → Except Fault Tree
  | .read _, t => .ok t
  | .write p bytes, t => t.write p bytes
  | .rename source target, t => t.rename source target

/-- The tree after an operation that nothing waits for any longer; where it fails nothing happens. -/
def land (op : Operation) (t : Tree) : Tree :=
  match op.apply t with
  | .ok t => t
  | .error _ => t

end Operation

end CoverageRun.Files
