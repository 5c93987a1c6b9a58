/-
Which source files a report leaves out. A path below the source root is matched as seen from the
root; a path outside stays as it is, so that a pattern like `/*` leaves out all that is not part of
the project.
-/
import CoverageRun.Coverage.Report
import CoverageRun.Files.Resolve
import CoverageRun.Glob.Match

namespace CoverageRun.Coverage

/-- Patterns for files that are left out, and the roots their paths are seen from: the source root
as it is spelled, and as the file tree knows it. -/
structure Exclusions where
  root : Path
  canonicalRoot : Option Path
  patterns : List Glob.Pattern
  deriving Repr, Inhabited

namespace Exclusions

/-- Why patterns cannot be matched against. -/
inductive Cause where
  /-- A pattern is none. -/
  | malformed (fault : Glob.Fault)
  /-- All patterns are read, and the set of them is refused. -/
  | refused (reason : String)
  deriving DecidableEq, Repr

/-- The message for a pattern, or for all of them. -/
def Cause.message (pattern : String) : Cause → String
  | .malformed fault => fault.message pattern
  | .refused reason => reason

/-- The pattern that is none, or the patterns that are refused, and why. -/
structure Fault where
  pattern : String
  cause : Cause
  deriving DecidableEq, Repr

/-- Reads patterns in order. -/
def readPatterns : List String → Except Fault (List Glob.Pattern)
  | [] => .ok []
  | text :: rest =>
    match Glob.Pattern.parse text with
    | .error fault => .error ⟨text, .malformed fault⟩
    | .ok p => (readPatterns rest).map (p :: ·)

/-- Patterns seen from a source root, which need not be in the file tree. What matches against them
may refuse a set of patterns that are read, by a limit of its own; where nothing else is said it
refuses none. -/
def make (t : Files.Tree) (root : Path) (patterns : List String)
    (refuses : List Glob.Pattern → Option String := fun _ => none) : Except Fault Exclusions :=
  match readPatterns patterns with
  | .error fault => .error fault
  | .ok ps =>
    match refuses ps with
    | some reason => .error ⟨Text.joinText ", " patterns, .refused reason⟩
    | none => .ok ⟨root.normalise, t.canonical? root, ps⟩

/-- The roots in the order they are tried. -/
def roots (x : Exclusions) : List Path := x.root :: x.canonicalRoot.toList

/-- A path as it is matched: as seen from the first root it is under, if it is absolute. -/
def candidate (x : Exclusions) (p : Path) : Path :=
  let p := p.normalise
  if p.isAbsolute then
    match x.roots.findSome? fun root => root.partsAfter? p with
    | some rest => .ofParts rest
    | none => p
  else p

/-- Whether a path ends in a step upwards, so that its last part is no name. -/
def endsUpwards (p : Path) : Bool := p.parts.getLast? == some .up

/-- Whether a pattern leaves out a path. A pattern that is about the last name says nothing on a
path without one. -/
def hits (p : Path) (pattern : Glob.Pattern) : Bool :=
  pattern.accepts p.text && !(endsUpwards p && Glob.isAboutName pattern.tokens)

/-- Whether a path is left out. -/
def excludes (x : Exclusions) (p : Path) : Bool := x.patterns.any (hits (x.candidate p))

end Exclusions

end CoverageRun.Coverage
