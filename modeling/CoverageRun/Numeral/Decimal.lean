/-
Decimal numbers with an optional sign, point and exponent: their grammar and the nearest number of
53 significant bits.
-/
import CoverageRun.Numeral.Binary64
import CoverageRun.Numeral.Whole

namespace CoverageRun.Numeral

/-- What a decimal text stands for. -/
inductive Decimal where
  | notANumber
  | infinite (negative : Bool)
  /-- The number `digits * 10 ^ exponent`, or its negative. -/
  | finite (negative : Bool) (digits : Nat) (exponent : Int)
  deriving DecidableEq, Repr

namespace Decimal

/-! ## Grammar -/

/-- A letter in lower case; other characters stay. -/
def lower (c : Char) : Char := if 'A' ≤ c && c ≤ 'Z' then Char.ofNat (c.toNat + 32) else c

/-- The digits a text begins with, and the rest. -/
def takeDigits (cs : List Char) : List Char × List Char :=
  (cs.takeWhile isDigit, cs.dropWhile isDigit)

/-- A sign, taken off: whether it was a minus, and the rest. -/
def takeSign : List Char → Bool × List Char
  | '-' :: r => (true, r)
  | '+' :: r => (false, r)
  | cs => (false, cs)

/-- The exponent part `e<sign><digits>`, or zero where the text has ended. -/
def readExponent : List Char → Option Int
  | [] => some 0
  | c :: r =>
    if lower c = 'e' then
      let (negative, digits) := takeSign r
      if digits ≠ [] ∧ digits.all isDigit then
        some (if negative then -(value digits : Int) else (value digits : Int))
      else none
    else none

/-- Digits with an optional point, at least one digit in all, and an optional exponent. -/
def readMagnitude (negative : Bool) (cs : List Char) : Option Decimal :=
  let (whole, r) := takeDigits cs
  let (fraction, r) :=
    match r with
    | '.' :: r => takeDigits r
    | r => ([], r)
  if whole = [] ∧ fraction = [] then none
  else
    (readExponent r).map fun e =>
      .finite negative (value (whole ++ fraction)) (e - (fraction.length : Int))

/-- A decimal number, or one of the words `nan`, `inf` and `infinity` in either case. -/
def read (cs : List Char) : Option Decimal :=
  let (negative, r) := takeSign cs
  let word := String.ofList (r.map lower)
  if word = "nan" then some .notANumber
  else if word = "inf" ∨ word = "infinity" then some (.infinite negative)
  else readMagnitude negative r

/-! ## The nearest number of 53 bits -/

/-- The size of a finite decimal, rounded; `none` where it reaches `2 ^ 1024`. Beyond 400 places
either way the answer is known without computing the power. -/
def magnitude (digits : Nat) (exponent : Int) : Option Binary64 :=
  if digits = 0 then some ⟨0, 0⟩
  else
    let places : Int := ((Nat.toDigits 10 digits).length : Int) + exponent
    if 400 < places then none
    else if places < -400 then some ⟨0, 0⟩
    else
      let x :=
        if 0 ≤ exponent then Binary64.ofRatio (digits * Nat.pow 10 exponent.toNat) 1
        else Binary64.ofRatio digits (Nat.pow 10 (-exponent).toNat)
      if x.isFinite then some x else none

/-- The whole number a decimal stands for once it is rounded to 53 bits, cut off at zero from below
and at the greatest number of 64 bits from above; `none` for what is not finite. -/
def toCount (d : Decimal) : Option UInt64 :=
  match d with
  | .finite negative digits exponent =>
    (magnitude digits exponent).map fun x =>
      if negative then 0 else UInt64.ofNat (min x.truncate (UInt64.size - 1))
  | _ => none

end Decimal

end CoverageRun.Numeral
