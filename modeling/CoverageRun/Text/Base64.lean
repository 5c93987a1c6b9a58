/-
Octets in the notation of base 64: three octets as four characters, with equals signs where the last
group has fewer.
-/
import CoverageRun.Text.Octets

namespace CoverageRun.Text

/-- The character of a number below sixty-four. -/
def base64Digit (n : Nat) : Char :=
  if n < 26 then Char.ofNat ('A'.toNat + n)
  else if n < 52 then Char.ofNat ('a'.toNat + (n - 26))
  else if n < 62 then Char.ofNat ('0'.toNat + (n - 52))
  else if n = 62 then '+' else '/'

/-- The first `count` characters of a group of three octets. -/
def base64Group (count : Nat) (a b c : UInt8) : List Char :=
  let n := (a.toNat * 256 + b.toNat) * 256 + c.toNat
  let digits := [n / 262144, n / 4096 % 64, n / 64 % 64, n % 64].map base64Digit
  digits.take count ++ List.replicate (4 - count) '='

/-- Octets in base 64. -/
def base64 : List UInt8 → List Char
  | a :: b :: c :: r => base64Group 4 a b c ++ base64 r
  | [a, b] => base64Group 3 a b 0
  | [a] => base64Group 2 a 0 0
  | [] => []

end CoverageRun.Text
