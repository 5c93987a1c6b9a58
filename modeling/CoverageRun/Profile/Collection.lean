/-
Collecting profiles: all files of their extension below a directory, except in directories that
hold no profiles of a run. Links below the directory are not followed.
-/
import CoverageRun.Files.Operations
import CoverageRun.Profile.Pattern

namespace CoverageRun.Profile

open Files

/-! ## The walk -/

/-- Names of directories that are not searched. -/
def isSkipped (name : String) : Bool := name == ".git" || name == "target"

/-- Whether an entry is a profile: a file whose name has the extension. -/
def isProfile (name : String) : Entry → Bool
  | .file _ _ => extension? name == some extension
  | _ => false

/-- The names on the way to each profile below a directory, no deeper than `depth`. -/
def namesWithin (t : Tree) : Nat → Location → List Location
  | 0, _ => []
  | depth + 1, dir =>
    (t.children dir).flatMap fun (name, e) =>
      match e with
      | .directory =>
        if isSkipped name then [] else (namesWithin t depth (dir ++ [name])).map (name :: ·)
      | e => if isProfile name e then [[name]] else []

/-- The names on the way to each profile below a directory, in path order. -/
def namesBelow (t : Tree) (dir : Location) : List Location := namesWithin t (t.depth + 1) dir

/-! ## Collecting and removing -/

/-- The profiles found below a directory. -/
structure Collection where
  root : Path
  artifacts : List Path
  deriving DecidableEq, Repr, Inhabited

/-- The directory a path leads to, if it leads to one. -/
def directoryAt? (t : Tree) (root : Path) : Option Location :=
  match t.find true root with
  | .ok (loc, .directory) => some loc
  | _ => none

/-- Collects the profiles below a directory; where there is no directory there are none. -/
def collect (t : Tree) (root : Path) : Collection :=
  match directoryAt? t root with
  | some dir => ⟨root, (namesBelow t dir).map fun names => names.foldl Path.join root⟩
  | none => ⟨root, []⟩

/-- Removes the profiles below a directory: how many there were, and the tree without them. -/
def removeAll (t : Tree) (root : Path) : Nat × Tree :=
  match directoryAt? t root with
  | some dir =>
    let found := namesBelow t dir
    (found.length, found.foldl (fun t names => t.erase (dir ++ names)) t)
  | none => (0, t)

end CoverageRun.Profile
