/-
Tables of characters: spans of code points in hexadecimal notation, with a blank or a line end
between two of them.
-/
import CoverageRun.Text.Octets
import CoverageRun.Text.Split

namespace CoverageRun.Text

/-! ## Spans -/

/-- The code points from `first` to `last`. -/
structure Span where
  first : Nat
  last : Nat
  deriving DecidableEq, Repr

/-- Whether a character lies in a span. -/
def Span.holds (s : Span) (c : Char) : Bool := s.first ≤ c.toNat && c.toNat ≤ s.last

/-- Whether a character lies in one of several spans. -/
def within (spans : List Span) (c : Char) : Bool := spans.any (·.holds c)

/-! ## Tables -/

/-- A number in hexadecimal notation. -/
def readHex (cs : List Char) : Nat := cs.foldl (fun v c => 16 * v + (hexValue? c).getD 0) 0

/-- A span: one number, or two with a hyphen between them. -/
def Span.read (cs : List Char) : Span :=
  match cut '-' cs with
  | some (first, last) => ⟨readHex first, readHex last⟩
  | none => ⟨readHex cs, readHex cs⟩

/-- The entries of a table. -/
def tableEntries (table : String) : List (List Char) :=
  (split ' ' (table.toList.map fun c => if c = '\n' then ' ' else c)).filter (· ≠ [])

/-- The spans of a table. -/
def readSpans (table : String) : List Span := (tableEntries table).map Span.read

end CoverageRun.Text
