/-
Cutting texts: at a separator, into lines, into words, and by what they begin or end with. A text
is a list of characters here, so that every cut is a recursion on the text itself.
-/
import CoverageRun.Text.Blank

namespace CoverageRun.Text

/-! ## At a separator -/

/-- The pieces between the separators: one more than there are separators. -/
def split (sep : Char) : List Char → List (List Char)
  | [] => [[]]
  | c :: r =>
    if c = sep then [] :: split sep r
    else
      match split sep r with
      | [] => [[c]]
      | p :: ps => (c :: p) :: ps

/-- What stands before and after the first separator, if there is one. -/
def cut (sep : Char) : List Char → Option (List Char × List Char)
  | [] => none
  | c :: r => if c = sep then some ([], r) else (cut sep r).map fun (a, b) => (c :: a, b)

/-- The pieces with the separator put back between them. -/
def join (sep : List Char) : List (List Char) → List Char
  | [] => []
  | [p] => p
  | p :: q :: ps => p ++ sep ++ join sep (q :: ps)

/-! ## Lines -/

/-- A line without the carriage return it ends with. -/
def dropReturn (line : List Char) : List Char :=
  match line.getLast? with
  | some '\r' => line.dropLast
  | _ => line

/-- The lines of a text: cut at line feeds, a carriage return before a line feed going with it, and
no empty line after the last line feed. -/
def lines (cs : List Char) : List (List Char) :=
  let parts := split '\n' cs
  let rest := parts.getLast?.getD []
  parts.dropLast.map dropReturn ++ (if rest = [] then [] else [rest])

/-! ## Words -/

/-- The first run of characters that are not blank. -/
def firstWord? (cs : List Char) : Option (List Char) :=
  match (trimStart cs).takeWhile (fun c => !isBlank c) with
  | [] => none
  | w => some w

/-! ## Beginnings, ends and inner parts -/

/-- What follows `lead` in a text that begins with it. -/
def after? (lead : List Char) (cs : List Char) : Option (List Char) :=
  match lead, cs with
  | [], cs => some cs
  | _ :: _, [] => none
  | l :: ls, c :: cs => if l = c then after? ls cs else none

/-- What precedes `tail` in a text that ends with it. -/
def before? (tail : List Char) (cs : List Char) : Option (List Char) :=
  (after? tail.reverse cs.reverse).map List.reverse

/-- Whether a text begins with `lead`. -/
def startsWith (lead cs : List Char) : Bool := (after? lead cs).isSome

/-- Whether a text ends with `tail`. -/
def endsWith (tail cs : List Char) : Bool := (before? tail cs).isSome

/-- Whether `part` occurs in a text. -/
def contains (part : List Char) : List Char → Bool
  | [] => part.isEmpty
  | c :: r => startsWith part (c :: r) || contains part r

/-! ## The same for strings -/

/-- What follows `lead` in a string that begins with it. -/
def afterText? (lead s : String) : Option String :=
  (after? lead.toList s.toList).map String.ofList

/-- What precedes `tail` in a string that ends with it. -/
def beforeText? (tail s : String) : Option String :=
  (before? tail.toList s.toList).map String.ofList

/-- The strings with a separator between them. -/
def joinText (sep : String) (parts : List String) : String :=
  String.ofList (join sep.toList (parts.map String.toList))

/-- The lines of a string. -/
def textLines (s : String) : List String := (lines s.toList).map String.ofList

/-- The last `count` lines of a string, put together with line feeds. -/
def lastLines (count : Nat) (s : String) : String :=
  let all := textLines s
  joinText "\n" (all.drop (all.length - count))

end CoverageRun.Text
