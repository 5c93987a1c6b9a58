/-
Octets and texts: a text as its UTF-8 octets, octets read as UTF-8 with every broken sequence
replaced, and hexadecimal notation.
-/

namespace CoverageRun.Text

/-! ## UTF-8 -/

/-- The UTF-8 octets of a text. -/
def octets (s : String) : List UInt8 := s.toUTF8.data.toList

/-- The text whose UTF-8 octets are given, if they are valid UTF-8. -/
def ofOctets? (bytes : List UInt8) : Option String := String.fromUTF8? (ByteArray.mk bytes.toArray)

/-- A sequence begun but not complete: the octets still owed, the least and the greatest octet the
next one may be, and the bits gathered so far. -/
structure Owed where
  count : Nat
  least : UInt8
  greatest : UInt8
  bits : UInt32
  deriving DecidableEq, Repr

/-- What the first octet of a sequence promises: a whole character, or more octets to come. -/
def Owed.first? (b : UInt8) : Option (Char ⊕ Owed) :=
  if b ≤ 0x7F then some (.inl (Char.ofNat b.toNat))
  else if 0xC2 ≤ b && b ≤ 0xDF then some (.inr ⟨1, 0x80, 0xBF, (b &&& 0x1F).toUInt32⟩)
  else if b == 0xE0 then some (.inr ⟨2, 0xA0, 0xBF, 0⟩)
  else if b == 0xED then some (.inr ⟨2, 0x80, 0x9F, 0xD⟩)
  else if 0xE1 ≤ b && b ≤ 0xEF then some (.inr ⟨2, 0x80, 0xBF, (b &&& 0x0F).toUInt32⟩)
  else if b == 0xF0 then some (.inr ⟨3, 0x90, 0xBF, 0⟩)
  else if 0xF1 ≤ b && b ≤ 0xF3 then some (.inr ⟨3, 0x80, 0xBF, (b &&& 0x07).toUInt32⟩)
  else if b == 0xF4 then some (.inr ⟨3, 0x80, 0x8F, 4⟩)
  else none

/-- The replacement character, which stands for octets that are no UTF-8. -/
def replacement : Char := '\ufffd'

/-- Octets read as UTF-8: each octet that begins no sequence, and each sequence broken off (up to
the octet that breaks it), becomes one replacement character. -/
def lossyFrom : Option Owed → List UInt8 → List Char
  | none, [] => []
  | some _, [] => [replacement]
  | none, b :: r =>
    match Owed.first? b with
    | none => replacement :: lossyFrom none r
    | some (.inl c) => c :: lossyFrom none r
    | some (.inr owed) => lossyFrom (some owed) r
  | some owed, b :: r =>
    if owed.least ≤ b && b ≤ owed.greatest then
      let bits := (owed.bits <<< 6) ||| (b &&& 0x3F).toUInt32
      match owed.count with
      | 0 | 1 => Char.ofNat bits.toNat :: lossyFrom none r
      | n + 2 => lossyFrom (some ⟨n + 1, 0x80, 0xBF, bits⟩) r
    else
      match Owed.first? b with
      | none => replacement :: replacement :: lossyFrom none r
      | some (.inl c) => replacement :: c :: lossyFrom none r
      | some (.inr owed') => replacement :: lossyFrom (some owed') r

/-- Octets as text, whatever they are. -/
def lossy (bytes : List UInt8) : String := String.ofList (lossyFrom none bytes)

/-! ## Hexadecimal notation -/

/-- The lower-case hexadecimal digit of a number below sixteen. -/
def hexDigit (n : Nat) : Char :=
  if n < 10 then Char.ofNat ('0'.toNat + n) else Char.ofNat ('a'.toNat + (n - 10))

/-- The number a hexadecimal digit stands for, in either case. -/
def hexValue? (c : Char) : Option Nat :=
  if '0' ≤ c && c ≤ '9' then some (c.toNat - '0'.toNat)
  else if 'a' ≤ c && c ≤ 'f' then some (c.toNat - 'a'.toNat + 10)
  else if 'A' ≤ c && c ≤ 'F' then some (c.toNat - 'A'.toNat + 10)
  else none

/-- A number as `width` hexadecimal digits, the lowest ones. -/
def hexDigits (width n : Nat) : List Char :=
  (List.range width).reverse.map fun i => hexDigit (n / Nat.pow 16 i % 16)

/-- Octets as pairs of hexadecimal digits. -/
def hexOf (bytes : List UInt8) : String :=
  String.ofList (bytes.flatMap fun b => hexDigits 2 b.toNat)

/-- The octets that pairs of hexadecimal digits stand for. -/
def ofHex? : List Char → Option (List UInt8)
  | [] => some []
  | a :: b :: r => do
    let hi ← hexValue? a
    let lo ← hexValue? b
    let rest ← ofHex? r
    pure (UInt8.ofNat (hi * 16 + lo) :: rest)
  | [_] => none

end CoverageRun.Text
