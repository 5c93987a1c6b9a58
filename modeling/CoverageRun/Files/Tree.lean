/-
File trees: what stands at each location, a location being the names on the way from the root. The
root is a directory that is always there; programs see the tree from a home directory, where
relative paths begin.
-/
import CoverageRun.Store.OrderedMap
import CoverageRun.Text.Octets

namespace CoverageRun.Files

open Store

/-- The names on the way from the root. -/
abbrev Location := List String

/-- What can stand at a location. -/
inductive Entry where
  | directory
  | file (bytes : List UInt8) (executable : Bool)
  /-- A symbolic link to a path. -/
  | link (target : String)
  deriving DecidableEq, Repr, Inhabited

/-- A file of text that is no program. -/
def Entry.text (s : String) : Entry := .file (Text.octets s) false

/-- A file tree as seen from a home directory. -/
structure Tree where
  entries : OrderedMap Location Entry
  home : Location
  deriving DecidableEq, Repr, Inhabited

namespace Tree

/-- What stands at a location. -/
def entry? (t : Tree) (loc : Location) : Option Entry :=
  if loc = [] then some .directory else t.entries.get? loc

/-- The tree with an entry at a location. -/
def put (t : Tree) (loc : Location) (e : Entry) : Tree :=
  { t with entries := t.entries.insert loc e }

/-- The tree without the entry at a location. -/
def erase (t : Tree) (loc : Location) : Tree :=
  { t with entries := t.entries.filter fun l _ => l != loc }

/-- The tree with a directory at a location and at every location on the way there. -/
def putDirectories (t : Tree) (loc : Location) : Tree :=
  (List.range loc.length).foldl
    (fun t n =>
      let l := loc.take (n + 1)
      if (t.entry? l).isSome then t else t.put l .directory)
    t

/-- The part of a location below a directory. -/
def below? (dir loc : Location) : Option Location :=
  if dir.isPrefixOf loc then some (loc.drop dir.length) else none

/-- The entries in a directory with their names, in the order of the names. -/
def children (t : Tree) (dir : Location) : List (String × Entry) :=
  t.entries.entries.filterMap fun (loc, e) =>
    match below? dir loc with
    | some [name] => some (name, e)
    | _ => none

/-- Everything below a directory, with the names on the way there. -/
def beneath (t : Tree) (dir : Location) : List (Location × Entry) :=
  t.entries.entries.filterMap fun (loc, e) =>
    match below? dir loc with
    | some (name :: names) => some (name :: names, e)
    | _ => none

/-- A bound on the length of locations. -/
def depth (t : Tree) : Nat := (t.entries.keys.map List.length).foldl max 0

/-- The tree that holds nothing but its home directory and the way there. -/
def empty (home : Location) : Tree := putDirectories ⟨.empty, home⟩ home

end Tree

end CoverageRun.Files
