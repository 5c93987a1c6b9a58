/-
Numbers with 53 significant bits, held exactly as a whole number times a power of two: rounding a
ratio to the nearest of them, ties to the even one, and writing them with one decimal place or as
64 bits. Everything is computed with whole numbers.
-/
import CoverageRun.Text.Octets

namespace CoverageRun.Numeral

/-- `a / b` rounded to the nearest whole number, a half to the even neighbour. -/
def roundDiv (a b : Nat) : Nat :=
  let q := a / b
  let r := a % b
  if 2 * r < b then q
  else if b < 2 * r then q + 1
  else if q % 2 = 0 then q else q + 1

/-- The non-negative number `mantissa * 2 ^ exponent`. -/
structure Binary64 where
  mantissa : Nat
  exponent : Int
  deriving DecidableEq, Repr, Inhabited

namespace Binary64

/-! ## Rounding -/

/-- `n * 2 ^ e`, which is a whole number when `e` is not negative, as a ratio. -/
def ratioOf (n : Nat) (e : Int) : Nat × Nat :=
  if 0 ≤ e then (n * Nat.pow 2 e.toNat, 1) else (n, Nat.pow 2 (-e).toNat)

/-- The least exponent at which `num / den` has 53 bits before the point, and no less than the
exponent of the smallest numbers. -/
def exponentFor (num den : Nat) : Int :=
  let k : Int := (num.log2 : Int) - (den.log2 : Int)
  let top := if (ratioOf den k).1 ≤ num * (ratioOf den k).2 then k else k - 1
  max (top - 52) (-1074)

/-- The ratio `num / den` rounded to 53 significant bits, ties to even. The numbers have no upper
limit here; `isFinite` tells which of them 64 bits can hold. -/
def ofRatio (num den : Nat) : Binary64 :=
  if num = 0 then ⟨0, 0⟩
  else
    let e := exponentFor num den
    if 0 ≤ e then ⟨roundDiv num (den * Nat.pow 2 e.toNat), e⟩
    else ⟨roundDiv (num * Nat.pow 2 (-e).toNat) den, e⟩

/-- A whole number rounded to 53 significant bits. -/
def ofNat (n : Nat) : Binary64 := ofRatio n 1

/-- The number as an exact ratio. -/
def ratio (x : Binary64) : Nat × Nat := ratioOf x.mantissa x.exponent

/-- Whether the number is below the limit `2 ^ 1024`. -/
def isFinite (x : Binary64) : Bool := x.ratio.1 < Nat.pow 2 1024 * x.ratio.2

/-- The rounded product. -/
def mul (x y : Binary64) : Binary64 := ofRatio (x.ratio.1 * y.ratio.1) (x.ratio.2 * y.ratio.2)

/-- The rounded quotient. -/
def div (x y : Binary64) : Binary64 := ofRatio (x.ratio.1 * y.ratio.2) (x.ratio.2 * y.ratio.1)

/-- The whole part. -/
def truncate (x : Binary64) : Nat := x.ratio.1 / x.ratio.2

/-! ## Writing -/

/-- The number with one decimal place, rounded from its exact value, a half to the even digit. -/
def oneDecimal (x : Binary64) : String :=
  let tenths := roundDiv (10 * x.ratio.1) x.ratio.2
  s!"{tenths / 10}.{tenths % 10}"

/-- The number's 64 bits: eleven of exponent and fifty-two of fraction. -/
def bits (x : Binary64) : Nat :=
  if x.mantissa = 0 then 0
  else
    let top : Int := (x.mantissa.log2 : Int) + x.exponent
    if top < -1022 then (x.mantissa : Nat) * Nat.pow 2 (x.exponent + 1074).toNat
    else
      let shift : Int := 52 - (x.mantissa.log2 : Int)
      let whole :=
        if 0 ≤ shift then x.mantissa * Nat.pow 2 shift.toNat
        else x.mantissa / Nat.pow 2 (-shift).toNat
      (top + 1023).toNat * Nat.pow 2 52 + (whole - Nat.pow 2 52)

/-- The number's 64 bits as sixteen hexadecimal digits. -/
def hexBits (x : Binary64) : String := String.ofList (Text.hexDigits 16 x.bits)

end Binary64

end CoverageRun.Numeral
