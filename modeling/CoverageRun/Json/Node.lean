/-
JSON as a reader meets it. A text is read into a tree in which the first fault on every way through
stands at its place, so that whoever takes the tree apart reports the faults he comes to and passes
over those in parts he does not want. Some texts are faulty only when they are wanted: a quoted text
with half a surrogate pair, a number beyond every limit.
-/
import CoverageRun.Numeral.Binary64
import CoverageRun.Numeral.Decimal
import CoverageRun.Text.Octets

namespace CoverageRun.Json

open Numeral

/-! ## Trees -/

/-- What can be wrong with a JSON text that is to hold a certain value. -/
inductive Cause where
  /-- It is no JSON. -/
  | malformed
  /-- It is JSON so far, but not of the wanted kind. -/
  | mismatched
  /-- It ends too early. -/
  | truncated
  deriving DecidableEq, Repr, Inhabited

mutual

/-- A value in a text. -/
inductive Node where
  | null
  | bool (b : Bool)
  /-- A number without point and exponent that is not minus zero. -/
  | integer (i : Int)
  /-- Any other number. -/
  | fraction
  | text (s : String)
  | array (items : Items)
  | object (members : Members)
  /-- A value that can be passed over but not read. -/
  | unreadable
  /-- A value broken off: the fault for who wants one of several names, for who reads it, and for
  who passes over it. -/
  | broken (chosen read skipped : Cause)

/-- The items of an array. -/
inductive Items where
  | closed
  /-- A fault where an item or the end was expected; `comma` tells whether a comma came first. -/
  | stop (comma : Bool) (cause : Cause)
  | item (value : Node) (rest : Items)

/-- The members of an object. -/
inductive Members where
  | closed
  /-- A fault where a key or the end was expected. -/
  | stop (comma : Bool) (read skipped : Cause)
  /-- The first thing in the object is no quoted text but this. -/
  | unkeyed (value : Node)
  | member (key : String) (value : Node) (rest : Members)
  /-- A member whose key can be passed over but not read. -/
  | strayMember (value : Node) (rest : Members)

end

instance : Inhabited Node := ⟨.null⟩

/-- A whole text: its value, and whether anything but blanks follows it. -/
structure Document where
  root : Node
  trailing : Bool
  deriving Inhabited

/-! ## Quoted texts -/

/-- The characters that may stand between values. -/
def isBlank (c : Char) : Bool := c == ' ' || c == '\n' || c == '\t' || c == '\r'

/-- A text without the blanks it begins with. -/
def skipBlanks (cs : List Char) : List Char := cs.dropWhile isBlank

/-- The end of a quoted text: it was read, it can only be passed over, or it broke off. -/
inductive Quoted where
  | read (s : String) (rest : List Char)
  | unreadable (rest : List Char)
  | broken (read skipped : Cause)

/-- The state of reading a quoted text: the characters so far, the last one first, the first half
of a surrogate pair that waits for the second, and whether the text has become unreadable. -/
structure Quoting where
  chars : List Char
  half : Option Nat
  spoiled : Bool

namespace Quoting

/-- A text that ends here with a fault. -/
def fail (q : Quoting) (cause : Cause) : Quoted :=
  .broken (if q.spoiled then .malformed else cause) cause

/-- Half a pair that anything but its second half follows spoils the text. -/
def settle (q : Quoting) : Quoting := { q with half := none, spoiled := q.spoiled || q.half.isSome }

/-- The text with one more character. -/
def push (q : Quoting) (c : Char) : Quoting := { q.settle with chars := c :: q.settle.chars }

/-- The text with one more unit of sixteen bits, written in hexadecimal digits. -/
def pushUnit (q : Quoting) (u : Nat) : Quoting :=
  if 0xDC00 ≤ u ∧ u ≤ 0xDFFF then
    match q.half with
    | some h =>
      { q with
        chars := Char.ofNat (0x10000 + (h - 0xD800) * 0x400 + (u - 0xDC00)) :: q.chars
        half := none }
    | none => { q with spoiled := true }
  else if 0xD800 ≤ u ∧ u ≤ 0xDBFF then { q.settle with half := some u }
  else q.push (Char.ofNat u)

/-- The text at its closing quote. -/
def close (q : Quoting) (rest : List Char) : Quoted :=
  if q.settle.spoiled then .unreadable rest else .read (String.ofList q.chars.reverse) rest

end Quoting

/-- The number four hexadecimal digits stand for. -/
def unit? (a b c d : Char) : Option Nat := do
  let a ← Text.hexValue? a
  let b ← Text.hexValue? b
  let c ← Text.hexValue? c
  let d ← Text.hexValue? d
  return ((a * 16 + b) * 16 + c) * 16 + d

/-- The character that a backslash and this one stand for. -/
def escaped? : Char → Option Char
  | '"' => some '"'
  | '\\' => some '\\'
  | '/' => some '/'
  | 'b' => some '\x08'
  | 'f' => some '\x0c'
  | 'n' => some '\n'
  | 'r' => some '\r'
  | 't' => some '\t'
  | _ => none

/-- Reads a quoted text after its opening quote. Four octets must follow `\u` before their digits
are looked at. -/
def readQuoted (q : Quoting) : List Char → Quoted
  | [] => q.fail .truncated
  | '"' :: r => q.close r
  | '\\' :: 'u' :: a :: b :: c :: d :: r =>
    match unit? a b c d with
    | some u => readQuoted (q.pushUnit u) r
    | none => q.fail .malformed
  | '\\' :: 'u' :: r =>
    q.fail (if (String.ofList r).utf8ByteSize < 4 then .truncated else .malformed)
  | '\\' :: c :: r =>
    match escaped? c with
    | some e => readQuoted (q.push e) r
    | none => q.settle.fail .malformed
  | ['\\'] => q.fail .truncated
  | c :: r => if c < ' ' then q.settle.fail .malformed else readQuoted (q.push c) r

/-! ## Numbers -/

/-- A fault where digits are wanted: at the end of the text, whoever reads the number sees that the
text is too short. -/
def digitsWanted (rest : List Char) : Node :=
  match rest with
  | [] => .broken .malformed .truncated .malformed
  | _ => .broken .malformed .malformed .malformed

/-- Reads digits behind those of `n` as long as 64 bits hold the number: it, and how many digits are
left over. -/
def leadingWord (n : Nat) : List Char → Nat × Nat
  | [] => (n, 0)
  | c :: r =>
    let longer := 10 * n + digitValue c
    if longer < UInt64.size then leadingWord longer r else (n, r.length + 1)

/-- The greatest power of ten that a number is scaled by. -/
def scaleLimit : Int := 308

/-- Whether `significand * 10 ^ exponent` can be read: the two are rounded before they are
multiplied, and the product stays below the limit of 53-bit numbers. -/
def isInRange (significand : Nat) (exponent : Int) : Bool :=
  if significand = 0 ∨ exponent < 0 then true
  else if scaleLimit < exponent then false
  else
    let scale := Binary64.ofNat (Nat.pow 10 exponent.toNat)
    ((Binary64.ofNat significand).mul scale).isFinite

/-- The value of a number in its parts. Of its digits those count that 64 bits hold; the others only
move the point. -/
def numberNode (negative : Bool) (whole : List Char) (rest : Option (List Char × Int)) : Node :=
  let (significand, left) := leadingWord 0 whole
  match rest with
  | none =>
    if left ≠ 0 ∧ isInRange significand left = false then .unreadable
    else if negative ∧ significand = 0 then .fraction
    else .integer (if negative then -(value whole : Int) else (value whole : Int))
  | some (fraction, exponent) =>
    let (significand, dropped) := leadingWord significand fraction
    let taken : Int := (fraction.length : Int) - dropped
    if isInRange significand (exponent + left - taken) then .fraction else .unreadable

/-- Reads the exponent of a number after its `e`. -/
def readExponent (negative : Bool) (whole fraction : List Char) (cs : List Char) :
    Node × Option (List Char) :=
  let (down, cs) := Decimal.takeSign cs
  let (digits, rest) := Decimal.takeDigits cs
  if digits = [] then (digitsWanted rest, none)
  else
    let e : Int := if down then -(value digits : Int) else (value digits : Int)
    (numberNode negative whole (some (fraction, e)), some rest)

/-- Reads what follows the whole part of a number. -/
def readFraction (negative : Bool) (whole : List Char) (cs : List Char) :
    Node × Option (List Char) :=
  match cs with
  | '.' :: r =>
    let (digits, rest) := Decimal.takeDigits r
    if digits = [] then (digitsWanted rest, none)
    else
      match rest with
      | 'e' :: r | 'E' :: r => readExponent negative whole digits r
      | _ => (numberNode negative whole (some (digits, 0)), some rest)
  | 'e' :: r | 'E' :: r => readExponent negative whole [] r
  | _ => (numberNode negative whole none, some cs)

/-- Reads a number after its sign. A zero is not followed by digits. -/
def readNumber (negative : Bool) (cs : List Char) : Node × Option (List Char) :=
  let (digits, rest) := Decimal.takeDigits cs
  match digits with
  | [] => (digitsWanted rest, none)
  | '0' :: _ :: _ => (.broken .malformed .malformed .malformed, none)
  | whole => readFraction negative whole rest

/-! ## Values -/

/-- Reads a word that is known by its first letter. -/
def readWord (node : Node) : List Char → List Char → Node × Option (List Char)
  | [], rest => (node, some rest)
  | _ :: _, [] => (.broken .malformed .truncated .truncated, none)
  | w :: ws, c :: cs =>
    if w = c then readWord node ws cs else (.broken .malformed .malformed .malformed, none)

mutual

/-- Reads a value; `fuel` bounds the nesting and the number of items together. -/
def readNode : Nat → List Char → Node × Option (List Char)
  | 0, _ => (.broken .truncated .truncated .truncated, none)
  | fuel + 1, cs =>
    match skipBlanks cs with
    | [] => (.broken .truncated .truncated .truncated, none)
    | 'n' :: r => readWord .null "ull".toList r
    | 't' :: r => readWord (.bool true) "rue".toList r
    | 'f' :: r => readWord (.bool false) "alse".toList r
    | '"' :: r =>
      match readQuoted ⟨[], none, false⟩ r with
      | .read s rest => (.text s, some rest)
      | .unreadable rest => (.unreadable, some rest)
      | .broken read skipped => (.broken read read skipped, none)
    | '-' :: r => readNumber true r
    | '[' :: r =>
      let (items, rest) := readItems fuel true r
      (.array items, rest)
    | '{' :: r =>
      let (members, rest) := readMembers fuel true r
      (.object members, rest)
    | c :: r =>
      if isDigit c then readNumber false (c :: r)
      else (.broken .malformed .malformed .malformed, none)

/-- Reads the items of an array from where the first one, or a comma, is expected. -/
def readItems : Nat → Bool → List Char → Items × Option (List Char)
  | 0, _, _ => (.stop false .truncated, none)
  | fuel + 1, first, cs =>
    match skipBlanks cs with
    | [] => (.stop false .truncated, none)
    | ']' :: r => (.closed, some r)
    | c :: r =>
      if first then readItem fuel (c :: r)
      else if c = ',' then
        match skipBlanks r with
        | [] => (.stop true .truncated, none)
        | ']' :: _ => (.stop true .malformed, none)
        | r => readItem fuel r
      else (.stop false .malformed, none)

/-- Reads an item and those after it. -/
def readItem : Nat → List Char → Items × Option (List Char)
  | 0, _ => (.stop false .truncated, none)
  | fuel + 1, cs =>
    match readNode fuel cs with
    | (v, none) => (.item v .closed, none)
    | (v, some rest) =>
      let (items, rest) := readItems fuel false rest
      (.item v items, rest)

/-- Reads the members of an object from where the first one, or a comma, is expected. -/
def readMembers : Nat → Bool → List Char → Members × Option (List Char)
  | 0, _, _ => (.stop false .truncated .truncated, none)
  | fuel + 1, first, cs =>
    match skipBlanks cs with
    | [] => (.stop false .truncated .truncated, none)
    | '}' :: r => (.closed, some r)
    | '"' :: r =>
      if first then readMember fuel r else (.stop false .malformed .malformed, none)
    | c :: r =>
      if first then (.unkeyed (readNode fuel (c :: r)).1, none)
      else if c = ',' then
        match skipBlanks r with
        | [] => (.stop true .truncated .truncated, none)
        | '"' :: r => readMember fuel r
        | _ => (.stop true .malformed .malformed, none)
      else (.stop false .malformed .malformed, none)

/-- Reads a member after the opening quote of its key, and those after it. -/
def readMember : Nat → List Char → Members × Option (List Char)
  | 0, _ => (.stop false .truncated .truncated, none)
  | fuel + 1, cs =>
    match readQuoted ⟨[], none, false⟩ cs with
    | .broken read skipped => (.stop true read skipped, none)
    | .read key rest =>
      match readMemberValue fuel rest with
      | (v, members, rest) => (.member key v members, rest)
    | .unreadable rest =>
      match readMemberValue fuel rest with
      | (v, members, rest) => (.strayMember v members, rest)

/-- Reads the colon and the value of a member, and the members after it. -/
def readMemberValue : Nat → List Char → Node × Members × Option (List Char)
  | 0, _ => (.broken .truncated .truncated .truncated, .closed, none)
  | fuel + 1, cs =>
    match skipBlanks cs with
    | [] => (.broken .truncated .truncated .truncated, .closed, none)
    | ':' :: r =>
      match readNode fuel r with
      | (v, none) => (v, .closed, none)
      | (v, some rest) =>
        let (members, rest) := readMembers fuel false rest
        (v, members, rest)
    | _ => (.broken .malformed .malformed .malformed, .closed, none)

end

/-- Reads a whole text. Every four steps of reading take at least one character. -/
def Document.read (s : String) : Document :=
  match readNode (4 * s.length + 4) s.toList with
  | (root, none) => ⟨root, false⟩
  | (root, some rest) => ⟨root, skipBlanks rest ≠ []⟩

end CoverageRun.Json
