/-
Hosts of URLs: domain names, and addresses of four or sixteen octets in all their notations.
-/
import CoverageRun.Numeral.Whole
import CoverageRun.Url.Domain.Name
import CoverageRun.Url.Encoding

namespace CoverageRun.Url

open Text

/-! ## Faults -/

/-- Why a text is no URL. -/
inductive Fault where
  | noHost
  | badDomain
  | badPort
  | badAddress4
  | badAddress6
  | badHostCharacter
  | relative
  deriving DecidableEq, Repr

/-- The wording of a fault. -/
def Fault.message : Fault → String
  | .noHost => "empty host"
  | .badDomain => "invalid international domain name"
  | .badPort => "invalid port number"
  | .badAddress4 => "invalid IPv4 address"
  | .badAddress6 => "invalid IPv6 address"
  | .badHostCharacter => "invalid domain character"
  | .relative => "relative URL without a base"

/-- A host. -/
inductive Host where
  /-- A name, empty where there is none. -/
  | name (text : String)
  | address4 (n : Nat)
  | address6 (pieces : List Nat)
  deriving DecidableEq, Repr, Inhabited

/-! ## Addresses of four octets -/

/-- A number in decimal notation, or after a zero in octal and after `0x` in hexadecimal notation.
-/
def number4? (cs : List Char) : Option Nat :=
  let hex (cs : List Char) : Option Nat :=
    cs.foldlM (fun v c => (hexValue? c).map (16 * v + ·)) 0
  let octal (cs : List Char) : Option Nat :=
    if cs.all fun c => '0' ≤ c && c ≤ '7' then
      some (cs.foldl (fun v c => 8 * v + Numeral.digitValue c) 0)
    else none
  match cs with
  | [] => none
  | '0' :: 'x' :: r | '0' :: 'X' :: r => hex r
  | '0' :: c :: r => octal (c :: r)
  | cs => if cs.all Numeral.isDigit then some (Numeral.value cs) else none

/-- The parts of a dotted name; an empty one at the end does not count. -/
def dottedParts (cs : List Char) : List (List Char) :=
  let parts := split '.' cs
  if parts.length > 1 ∧ parts.getLast? = some [] then parts.dropLast else parts

/-- Whether the last part of a name is a number, so that the name must be an address. -/
def endsInNumber (cs : List Char) : Bool :=
  match (dottedParts cs).getLast? with
  | none | some [] => false
  | some part => part.all Numeral.isDigit || (number4? part).isSome

/-- Reads an address: up to four numbers, the last of which fills the octets that remain. -/
def readAddress4 (cs : List Char) : Except Fault Nat :=
  let parts := dottedParts cs
  if 4 < parts.length then .error .badAddress4
  else
    match parts.mapM number4? with
    | none => .error .badAddress4
    | some numbers =>
      let last := numbers.getLast?.getD 0
      let high := numbers.dropLast
      if Nat.pow 256 (5 - numbers.length) ≤ last ∨ high.any (255 < ·) then .error .badAddress4
      else
        .ok (high.zipIdx.foldl (fun total (n, i) => total + n * Nat.pow 256 (3 - i)) last)

/-- An address in dotted notation. -/
def writeAddress4 (n : Nat) : String :=
  joinText "." (([3, 2, 1, 0]).map fun i => toString (n / Nat.pow 256 i % 256))

/-! ## Addresses of sixteen octets -/

/-- Reads an octet in decimal notation without leading zeros. -/
def octet? (cs : List Char) : Option Nat :=
  match cs with
  | [] => none
  | '0' :: _ :: _ => none
  | cs => if cs.all Numeral.isDigit ∧ Numeral.value cs < 256 then some (Numeral.value cs) else none

/-- Reads the last two pieces of an address from dotted notation. -/
def dotted? (cs : List Char) : Option (List Nat) :=
  match (split '.' cs).mapM octet? with
  | some [a, b, c, d] => some [a * 256 + b, c * 256 + d]
  | _ => none

/-- Reads a piece: one to four hexadecimal digits. -/
def piece? (cs : List Char) : Option Nat :=
  if cs = [] ∨ 4 < cs.length then none
  else cs.foldlM (fun v c => (hexValue? c).map (16 * v + ·)) 0

/-- Reads pieces with colons between them; the last may be in dotted notation. -/
def pieces? : List (List Char) → Option (List Nat)
  | [] => some []
  | [last] => if last.contains '.' then dotted? last else (piece? last).map ([·])
  | p :: ps => do
    let n ← piece? p
    let ns ← pieces? ps
    return n :: ns

/-- Where two colons stand together first: what is before and after them. -/
def cutGap? : List Char → Option (List Char × List Char)
  | ':' :: ':' :: r => some ([], r)
  | c :: r => (cutGap? r).map fun (a, b) => (c :: a, b)
  | [] => none

/-- The pieces of a part of an address, of which the empty text has none. -/
def side? (cs : List Char) : Option (List Nat) :=
  if cs = [] then some [] else pieces? (split ':' cs)

/-- Reads an address: eight pieces, or fewer with two colons for those that are zero. -/
def readAddress6 (cs : List Char) : Except Fault (List Nat) :=
  match cutGap? cs with
  | none =>
    match pieces? (split ':' cs) with
    | some ps => if ps.length = 8 then .ok ps else .error .badAddress6
    | none => .error .badAddress6
  | some (before, after) =>
    if before.contains '.' then .error .badAddress6
    else
      match side? before, side? after with
      | some a, some b =>
        if a.length + b.length < 8 then
          .ok (a ++ List.replicate (8 - a.length - b.length) 0 ++ b)
        else .error .badAddress6
      | _, _ => .error .badAddress6

/-- The longest run of zeros in a list, the first of several: its place and length. -/
def zeroRun : Nat → List Nat → Nat × Nat
  | _, [] => (0, 0)
  | i, n :: r =>
    let here := ((n :: r).takeWhile (· == 0)).length
    let later := zeroRun (i + 1) r
    if later.2 ≤ here then (i, here) else later

/-- A number in hexadecimal notation without leading zeros. -/
def hexText (n : Nat) : String := String.ofList (Nat.toDigits 16 n)

/-- An address with two colons for its longest run of at least two zeros. -/
def writeAddress6 (pieces : List Nat) : String :=
  let text (ps : List Nat) := joinText ":" (ps.map hexText)
  let (place, length) := zeroRun 0 pieces
  if length < 2 then text pieces
  else text (pieces.take place) ++ "::" ++ text (pieces.drop (place + length))

/-! ## Hosts -/

/-- What stands between brackets, if a text begins with one. -/
def bracketed? (cs : List Char) : Option (Except Fault (List Char)) :=
  match cs with
  | '[' :: r =>
    some (if r.getLast? = some ']' then .ok r.dropLast else .error .badAddress6)
  | _ => none

/-- Reads the host of a URL whose scheme is known to name hosts. -/
def readHost (cs : List Char) : Except Fault Host :=
  match bracketed? cs with
  | some inside => do return .address6 (← readAddress6 (← inside))
  | none => do
    match ofOctets? (decode (octets (String.ofList cs))) with
    | none => throw .badDomain
    | some s =>
      match Domain.toAscii? s.toList with
      | none => throw .badDomain
      | some [] => throw .noHost
      | some domain =>
        if endsInNumber domain then return .address4 (← readAddress4 domain)
        return .name (String.ofList domain)

/-- The characters that no host of another scheme may have. -/
def isForbiddenElsewhere (c : Char) : Bool :=
  ['\x00', '\t', '\n', '\r', ' ', '#', '/', ':', '<', '>', '?', '@', '[', '\\', ']', '^',
    '|'].contains c

/-- Reads the host of any other URL. -/
def readPlainHost (cs : List Char) : Except Fault Host :=
  match bracketed? cs with
  | some inside => do return .address6 (← readAddress6 (← inside))
  | none =>
    if cs.any isForbiddenElsewhere then .error .badHostCharacter
    else .ok (.name (String.ofList (encode controlSet cs)))

/-- The text of a host. -/
def Host.text : Host → String
  | .name text => text
  | .address4 n => writeAddress4 n
  | .address6 pieces => "[" ++ writeAddress6 pieces ++ "]"

end CoverageRun.Url
