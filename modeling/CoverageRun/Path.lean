/-
Paths. A path is kept as its text; equality, order and the tests on beginnings go by its parts, so
repeated and trailing slashes do not count, nor do `.` parts except at the head of a relative path.
-/
import CoverageRun.Text.Split

namespace CoverageRun

/-! ## Parts -/

/-- A part of a path: the root, the directory itself, the directory above, or a name. -/
inductive Part where
  | root
  | here
  | up
  | name (text : String)
  deriving DecidableEq, Repr, Inhabited

namespace Part

/-- The text of a part. -/
def text : Part → String
  | .root => "/"
  | .here => "."
  | .up => ".."
  | .name t => t

/-- The root comes first, then `.`, then `..`, then names. -/
def rank : Part → Nat
  | .root => 0
  | .here => 1
  | .up => 2
  | .name _ => 3

/-- Parts go by rank, and names among themselves by their characters. -/
instance : Ord Part := ⟨compareLex (compareOn rank) (compareOn text)⟩

instance : Std.TransOrd Part :=
  inferInstanceAs (Std.TransCmp (compareLex (compareOn rank) (compareOn text)))

instance : Std.LawfulEqOrd Part where
  eq_of_compare {a b} h := by
    have h' : compareLex (compareOn rank) (compareOn text) a b = .eq := h
    simp only [compareLex, compareOn, Ordering.then_eq_eq] at h'
    obtain ⟨h1, h2⟩ := h'
    have h1 := Std.LawfulEqOrd.eq_of_compare h1
    have h2 := Std.LawfulEqOrd.eq_of_compare h2
    cases a <;> cases b <;> simp_all [rank, text]

/-- The part that a piece between two slashes stands for; an empty piece and `.` stand for none. -/
def ofPiece? (piece : List Char) : Option Part :=
  match piece with
  | [] => none
  | ['.'] => none
  | ['.', '.'] => some .up
  | cs => some (.name (String.ofList cs))

end Part

/-! ## Paths -/

/-- A path, as it is spelled. -/
structure Path where
  text : String
  deriving DecidableEq, Repr, Inhabited

namespace Path

/-- A path that starts at the root. -/
def isAbsolute (p : Path) : Bool := p.text.toList.head? == some '/'

/-- The parts of a path. -/
def parts (p : Path) : List Part :=
  let pieces := Text.split '/' p.text.toList
  let names := pieces.filterMap Part.ofPiece?
  if p.isAbsolute then .root :: names
  else if pieces.head? = some ['.'] then .here :: names
  else names

/-- Paths go by their parts. -/
instance : Ord Path := ⟨compareOn parts⟩

instance : Std.TransOrd Path := inferInstanceAs (Std.TransCmp (compareOn parts))

/-- Two spellings of one path. -/
def same (p q : Path) : Bool := p.parts == q.parts

/-! ## Joining and splitting -/

/-- The path `q` as seen from `p`: put after it with a slash between, or `q` alone if that starts at
the root. -/
def join (p : Path) (q : String) : Path :=
  if (Path.mk q).isAbsolute ∨ p.text = "" then ⟨q⟩
  else if Text.endsWith ['/'] p.text.toList then ⟨p.text ++ q⟩
  else ⟨p.text ++ "/" ++ q⟩

/-- The canonical spelling of a list of parts. -/
def ofParts (parts : List Part) : Path :=
  match parts with
  | .root :: r => ⟨"/" ++ Text.joinText "/" (r.map Part.text)⟩
  | ps => ⟨Text.joinText "/" (ps.map Part.text)⟩

/-- The path without `.` parts, canonically spelled. -/
def normalise (p : Path) : Path := ofParts (p.parts.filter (· ≠ .here))

/-- The parts that follow `base`, if the path begins with it. -/
def partsAfter? (base p : Path) : Option (List Part) :=
  if base.parts.isPrefixOf p.parts then some (p.parts.drop base.parts.length) else none

/-- Whether the path begins with all the parts of `base`. -/
def isUnder (p base : Path) : Bool := base.parts.isPrefixOf p.parts

/-! ## The last part -/

/-- The last part, if it is a name. -/
def fileName? (p : Path) : Option String :=
  match p.parts.getLast? with
  | some (.name t) => some t
  | _ => none

/-- The path to the directory that holds what a path names, by its parts; the root and the empty
path have none. -/
def parent? (p : Path) : Option Path :=
  match p.parts.getLast? with
  | none | some .root => none
  | some _ => some (.ofParts p.parts.dropLast)

/-- The path with text put after its last character. -/
def withSuffix (p : Path) (suffix : String) : Path := ⟨p.text ++ suffix⟩

end Path

/-- What follows the last dot of a file name; a name without a dot, or with no other dot than one at
its head, has no extension. -/
def extension? (name : String) : Option String :=
  match Text.cut '.' name.toList.reverse with
  | some (tail, before) => if before = [] then none else some (String.ofList tail.reverse)
  | none => none

end CoverageRun
