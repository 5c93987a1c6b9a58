/-
Numbers as the shell reads them in words, variables and formats: whole numbers of 64 bits in
decimal, octal, hexadecimal or binary digits, with blanks and a sign before them.
-/
import CoverageRun.Text.Octets

namespace CoverageRun.Shell

open Text

/-! ## Blanks -/

/-- The blanks that may stand before a number. -/
def isMargin (c : Char) : Bool := c == ' ' || ('\t' ≤ c && c ≤ '\r')

/-! ## Digits -/

/-- How a number is written: in decimal digits, or as its head says, where `0x` stands for
hexadecimal, `0b` for binary and another `0` for octal digits. -/
inductive Radix where
  | decimal
  | marked
  deriving DecidableEq, Repr

/-- The number that the digits at the head of a text stand for, after `n`, and the rest. -/
def takeDigits (base n : Nat) : List Char → Nat × List Char
  | [] => (n, [])
  | c :: r =>
    match hexValue? c with
    | some d => if d < base then takeDigits base (base * n + d) r else (n, c :: r)
    | none => (n, c :: r)

/-- Whether a text begins with a digit of a base. -/
def beginsInBase (base : Nat) (cs : List Char) : Bool :=
  match cs.head?.bind hexValue? with
  | some d => d < base
  | none => false

/-- The number that the digits at the head of a text stand for, and the rest; nothing without a
digit. -/
def takeMagnitude? (radix : Radix) (cs : List Char) : Option (Nat × List Char) :=
  if !beginsInBase 10 cs then none
  else
    match radix, cs with
    | .marked, '0' :: x :: r =>
      if x.toLower = 'x' ∧ beginsInBase 16 r then some (takeDigits 16 0 r)
      else if x.toLower = 'b' ∧ beginsInBase 2 r then some (takeDigits 2 0 r)
      else some (takeDigits 8 0 (x :: r))
    | _, cs => some (takeDigits 10 0 cs)

/-- The number at the head of a text behind blanks and a sign, of any size, and the rest; nothing
without a digit. -/
def takeNumber? (radix : Radix) (cs : List Char) : Option (Int × List Char) :=
  match cs.dropWhile isMargin with
  | '-' :: r => (takeMagnitude? radix r).map fun (n, r) => (-(n : Int), r)
  | '+' :: r => (takeMagnitude? radix r).map fun (n, r) => ((n : Int), r)
  | r => (takeMagnitude? radix r).map fun (n, r) => ((n : Int), r)

/-! ## Words of 64 bits -/

/-- Whether a number fits into 64 bits with a sign. -/
def isInWord (n : Int) : Bool := Int64.minValue.toInt ≤ n && n ≤ Int64.maxValue.toInt

/-- The number of 64 bits nearest to a number. -/
def saturated (n : Int) : Int64 :=
  if n < Int64.minValue.toInt then Int64.minValue
  else if Int64.maxValue.toInt < n then Int64.maxValue
  else Int64.ofInt n

/-- The number that a whole text stands for, with blanks around it. An empty text is zero where the
head of a number tells its base. -/
def wordValue? (radix : Radix) (text : String) : Option Int64 :=
  let isBlank (cs : List Char) : Bool := cs.all isMargin
  match takeNumber? radix text.toList with
  | some (n, rest) => if isInWord n && isBlank rest then some (Int64.ofInt n) else none
  | none => if radix = .marked ∧ isBlank text.toList then some 0 else none

/-- A count that a whole text stands for: a decimal number from zero to the greatest of 32 bits. -/
def countValue? (text : String) : Option Nat :=
  match wordValue? .decimal text with
  | some n => if 0 ≤ n.toInt ∧ n.toInt ≤ Int32.maxValue.toInt then some n.toInt.toNat else none
  | none => none

end CoverageRun.Shell
