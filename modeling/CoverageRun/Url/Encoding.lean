/-
Octets in URLs: percent-encoding of those a place does not take, and the encoding of form values,
where a blank becomes a plus sign.
-/
import CoverageRun.Text.Octets
import CoverageRun.Text.Split

namespace CoverageRun.Url

open Text

/-! ## Percent-encoding -/

/-- A hexadecimal digit in upper case. -/
def upperDigit (n : Nat) : Char := (hexDigit n).toUpper

/-- An octet as a percent sign and two digits. -/
def escapeOctet (b : UInt8) : List Char :=
  ['%', upperDigit (b.toNat / 16), upperDigit (b.toNat % 16)]

/-- A text with the characters outside ASCII and those of a set escaped, octet by octet. -/
def encode (escaped : Char → Bool) (cs : List Char) : List Char :=
  cs.flatMap fun c =>
    if 0x7F ≤ c.toNat ∨ c < ' ' ∨ escaped c = true then
      (octets (String.singleton c)).flatMap escapeOctet
    else [c]

/-- What is escaped where only control characters are not taken. -/
def controlSet (_ : Char) : Bool := false

/-- What is escaped in a fragment. -/
def fragmentSet (c : Char) : Bool := [' ', '"', '<', '>', '\x60'].contains c

/-- What is escaped in a path. -/
def pathSet (c : Char) : Bool := fragmentSet c || ['#', '?', '\x7b', '\x7d'].contains c

/-- What is escaped in a user name or password. -/
def userSet (c : Char) : Bool :=
  pathSet c || ['/', ':', ';', '=', '@', '[', '\\', ']', '^', '|'].contains c

/-- What is escaped in a query. -/
def querySet (special : Bool) (c : Char) : Bool :=
  [' ', '"', '#', '<', '>'].contains c || (special && c == '\'')

/-- Octets with every escape undone; a percent sign that begins none stays. -/
def decode : List UInt8 → List UInt8
  | 0x25 :: a :: b :: r =>
    match hexValue? (Char.ofNat a.toNat), hexValue? (Char.ofNat b.toNat) with
    | some x, some y => UInt8.ofNat (16 * x + y) :: decode r
    | _, _ => 0x25 :: decode (a :: b :: r)
  | b :: r => b :: decode r
  | [] => []

/-! ## Form values -/

/-- The octets that stand for themselves in a form value. -/
def isBare (b : UInt8) : Bool :=
  let c := Char.ofNat b.toNat
  ('a' ≤ c && c ≤ 'z') || ('A' ≤ c && c ≤ 'Z') || ('0' ≤ c && c ≤ '9') ||
    ['*', '-', '.', '_'].contains c

/-- An octet of a form value. -/
def formOctet (b : UInt8) : List Char :=
  if isBare b then [Char.ofNat b.toNat] else if b = 0x20 then ['+'] else escapeOctet b

/-- A form value. -/
def formEncode (s : String) : List Char := (octets s).flatMap formOctet

/-- Names and values as a form. -/
def formPairs (pairs : List (String × String)) : List Char :=
  join ['&'] (pairs.map fun p => formEncode p.1 ++ '=' :: formEncode p.2)

/-- The text that a form value stands for. -/
def formDecode (cs : List Char) : String :=
  lossy (decode (octets (String.ofList (cs.map fun c => if c = '+' then ' ' else c))))

/-- The names and values of a form. -/
def readForm (cs : List Char) : List (String × String) :=
  ((split '&' cs).filter (· ≠ [])).map fun pair =>
    match cut '=' pair with
    | some (name, value) => (formDecode name, formDecode value)
    | none => (formDecode pair, "")

end CoverageRun.Url
