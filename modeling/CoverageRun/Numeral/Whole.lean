/-
Whole numbers in decimal digits: reading them under a bound, and writing them.
-/

namespace CoverageRun.Numeral

/-- An ASCII decimal digit. -/
def isDigit (c : Char) : Bool := '0' ≤ c && c ≤ '9'

/-- The number that a decimal digit stands for. -/
def digitValue (c : Char) : Nat := c.toNat - '0'.toNat

/-- The number that decimal digits stand for, the highest first, after `n`. -/
def valueFrom (n : Nat) (digits : List Char) : Nat :=
  digits.foldl (fun v c => 10 * v + digitValue c) n

/-- The number that decimal digits stand for, the highest first. -/
def value (digits : List Char) : Nat := valueFrom 0 digits

/-- A text without one leading plus sign. -/
def dropPlus : List Char → List Char
  | '+' :: r => r
  | cs => cs

/-- A whole number below `bound`: one or more decimal digits, possibly after a plus sign. -/
def readBelow (bound : Nat) (cs : List Char) : Option Nat :=
  let digits := dropPlus cs
  if digits ≠ [] ∧ digits.all isDigit ∧ value digits < bound then some (value digits) else none

/-- A whole number of 32 bits. -/
def read32 (cs : List Char) : Option UInt32 := (readBelow UInt32.size cs).map UInt32.ofNat

/-- A whole number of 64 bits. -/
def read64 (cs : List Char) : Option UInt64 := (readBelow UInt64.size cs).map UInt64.ofNat

/-- A whole number in decimal digits, without leading zeros. -/
def write (n : Nat) : List Char := Nat.toDigits 10 n

/-- A whole number in decimal digits, a minus sign before it when it is negative. -/
def writeInt (i : Int) : String :=
  if i < 0 then "-" ++ String.ofList (write i.natAbs) else String.ofList (write i.natAbs)

end CoverageRun.Numeral
