/-
Formats: texts with directives, each of which prints an argument as a text or a number in a given
width.
-/
import CoverageRun.Numeral.Decimal
import CoverageRun.Shell.Number

namespace CoverageRun.Shell.Format

open Text Numeral

/-! ## Escapes -/

/-- The value of up to `count` octal digits after `n`, and what follows them. -/
def takeOctal : Nat → Nat → List Char → Nat × List Char
  | 0, n, cs => (n, cs)
  | count + 1, n, c :: r =>
    if '0' ≤ c ∧ c ≤ '7' then takeOctal count (8 * n + (c.toNat - '0'.toNat)) r else (n, c :: r)
  | _ + 1, n, [] => (n, [])

/-- The octet a letter stands for after a backslash. -/
def escape? (c : Char) : Option UInt8 :=
  match c with
  | 'a' => some 7
  | 'b' => some 8
  | 't' => some 9
  | 'n' => some 10
  | 'v' => some 11
  | 'f' => some 12
  | 'r' => some 13
  | 'e' => some 27
  | '\\' => some 92
  | _ => none

/-- The octet that what follows a backslash stands for, and what follows that. A backslash before
anything else stands for itself. -/
def takeEscape (cs : List Char) : UInt8 × List Char :=
  match cs with
  | [] => (92, [])
  | c :: r =>
    match escape? c with
    | some b => (b, r)
    | none =>
      if '0' ≤ c ∧ c ≤ '7' then
        let (n, r) := takeOctal 3 0 (c :: r)
        (UInt8.ofNat n, r)
      else (92, c :: r)

/-- The octets of a text with its escapes replaced, and whether it asks for nothing to follow. A
zero may stand before the digits of an octal number; `fuel` is at least the number of characters. -/
def unescape : Nat → List Char → List UInt8 × Bool
  | 0, _ | _, [] => ([], false)
  | fuel + 1, '\\' :: r =>
    if r.head? = some 'c' then ([], true)
    else
      let isOctal (c : Char) : Bool := '0' ≤ c && c ≤ '7'
      let r := match r with
        | '0' :: d :: r => if isOctal d then d :: r else '0' :: d :: r
        | r => r
      let (b, r) := takeEscape r
      let (rest, stop) := unescape fuel r
      (b :: rest, stop)
  | fuel + 1, c :: r =>
    let (rest, stop) := unescape fuel r
    (octets c.toString ++ rest, stop)

/-! ## Directives -/

/-- A width or a precision: a number that stands in the format, or one that an argument gives. -/
inductive Amount where
  | fixed (n : Nat)
  | given
  deriving DecidableEq, Repr

/-- What a directive asks for. -/
structure Directive where
  flags : List Char
  width : Option Amount
  precision : Option Amount
  kind : Char
  deriving DecidableEq, Repr

/-- A part of a format. -/
inductive Item where
  | octet (b : UInt8)
  | directive (d : Directive)
  /-- No directive, though it may have asked for amounts; nothing behind it is printed. -/
  | bad (amounts : List Amount) (message : String)
  deriving DecidableEq, Repr

/-- The letters of directives. -/
def kinds : List Char :=
  ['b', 'c', 's', 'd', 'i', 'o', 'u', 'x', 'X', 'a', 'A', 'e', 'E', 'f', 'F', 'g', 'G']

/-- A star or digits at the head of a text, and what follows them. -/
def takeAmount (cs : List Char) : Option Amount × List Char :=
  match cs with
  | '*' :: r => (some .given, r)
  | cs =>
    let digits := cs.takeWhile isDigit
    (if digits = [] then none else some (.fixed (value digits)), cs.drop digits.length)

/-- A directive behind its percent sign, and what follows it; nothing follows what is none. -/
def takeDirective (cs : List Char) : Item × List Char :=
  let flags := cs.takeWhile fun c => ['#', '-', '+', ' ', '0'].contains c
  let (width, r) := takeAmount (cs.drop flags.length)
  let (precision, r) : Option Amount × List Char :=
    match r with
    | '.' :: r =>
      let (amount, r) := takeAmount r
      (some (amount.getD (.fixed 0)), r)
    | r => (none, r)
  let amounts := width.toList ++ precision.toList
  match r with
  | [] => (.bad amounts "missing format character", [])
  | kind :: rest =>
    if kinds.contains kind then (.directive ⟨flags, width, precision, kind⟩, rest)
    else
      let text := String.ofList ('%' :: cs.take (cs.length - rest.length))
      (.bad amounts s!"{text}: invalid directive", [])

/-- The parts of a format; `fuel` is at least the number of its characters. -/
def itemsWithin : Nat → List Char → List Item
  | 0, _ | _, [] => []
  | fuel + 1, '\\' :: r =>
    let (b, r) := takeEscape r
    .octet b :: itemsWithin fuel r
  | fuel + 1, '%' :: '%' :: r => .octet 37 :: itemsWithin fuel r
  | fuel + 1, '%' :: r =>
    let (item, r) := takeDirective r
    item :: itemsWithin fuel r
  | fuel + 1, c :: r => (octets c.toString).map Item.octet ++ itemsWithin fuel r

/-- The parts of a format. -/
def items (format : String) : List Item := itemsWithin format.length format.toList

/-! ## Texts and whole numbers -/

/-- Octets filled up with blanks to a width, on their left unless the flags say otherwise. -/
def padded (flags : List Char) (width : Nat) (bytes : List UInt8) : List UInt8 :=
  let gap := List.replicate (width - bytes.length) (32 : UInt8)
  if flags.contains '-' then bytes ++ gap else gap ++ bytes

/-- A sign and digits filled up to a width: with zeros between them where the flags ask for that and
`mayFill` says so, else with blanks. -/
def numeral (flags : List Char) (width : Nat) (mayFill : Bool) (lead digits : List Char) :
    List UInt8 :=
  let zeros :=
    if flags.contains '0' && !flags.contains '-' && mayFill then
      List.replicate (width - lead.length - digits.length) '0'
    else []
  padded flags width (octets (String.ofList (lead ++ zeros ++ digits)))

/-- The sign that stands before a number. -/
def signOf (flags : List Char) (negative : Bool) : List Char :=
  if negative then ['-']
  else if flags.contains '+' then ['+']
  else if flags.contains ' ' then [' ']
  else []

/-- The digits of a number with zeros before them up to a precision; zero has none in precision
zero. -/
def digitsOf (base : Nat) (precision : Option Nat) (n : Nat) : List Char :=
  if n = 0 ∧ precision = some 0 then []
  else
    let digits := Nat.toDigits base n
    List.replicate (precision.getD 0 - digits.length) '0' ++ digits

/-- A whole number as a directive shows it: with a sign, or the 64 bits of it without one. -/
def whole (flags : List Char) (width : Nat) (precision : Option Nat) (kind : Char) (n : Int) :
    List UInt8 :=
  let isMarked := flags.contains '#'
  let shown (base : Nat) (lead : List Char) : List UInt8 :=
    let digits := digitsOf base precision n.toNat
    let digits := if base = 8 ∧ isMarked ∧ digits.head? ≠ some '0' then '0' :: digits else digits
    numeral flags width precision.isNone lead digits
  match kind with
  | 'o' => shown 8 []
  | 'x' => shown 16 (if isMarked ∧ n ≠ 0 then ['0', 'x'] else [])
  | 'X' =>
    let digits := (digitsOf 16 precision n.toNat).map Char.toUpper
    numeral flags width precision.isNone (if isMarked ∧ n ≠ 0 then ['0', 'X'] else []) digits
  | 'u' => shown 10 []
  | _ =>
    numeral flags width precision.isNone (signOf flags (n < 0)) (digitsOf 10 precision n.natAbs)

/-! ## Numbers with a point -/

/-- A number of 64 bits with a point. -/
inductive Real where
  | notANumber
  | infinite (negative : Bool)
  | finite (negative : Bool) (size : Binary64)
  deriving Repr

/-- Digits with a point before the last ones of them, so many in number. -/
def pointed (isMarked : Bool) (places : Nat) (n : Nat) : List Char :=
  let digits := Nat.toDigits 10 n
  let digits := List.replicate (places + 1 - digits.length) '0' ++ digits
  let whole := digits.take (digits.length - places)
  if places = 0 then (if isMarked then whole ++ ['.'] else whole)
  else whole ++ '.' :: digits.drop (digits.length - places)

/-- A number with so many places behind the point. -/
def fixedDigits (isMarked : Bool) (places : Nat) (x : Binary64) : List Char :=
  pointed isMarked places (roundDiv (x.ratio.1 * Nat.pow 10 places) x.ratio.2)

/-- The ratio of a number to a power of ten. -/
def scaled (x : Binary64) (e : Int) : Nat × Nat :=
  if 0 ≤ e then (x.ratio.1, x.ratio.2 * Nat.pow 10 e.toNat)
  else (x.ratio.1 * Nat.pow 10 (-e).toNat, x.ratio.2)

/-- The power of ten that the first digit of a number stands for. -/
def orderOf (x : Binary64) : Int :=
  if x.mantissa = 0 then 0
  else
    let guess : Int :=
      ((Nat.toDigits 10 x.ratio.1).length : Int) - ((Nat.toDigits 10 x.ratio.2).length : Int)
    let (a, b) := scaled x guess
    if a < b then guess - 1 else guess

/-- The first digits of a number, so many behind the first one, and the power of ten that the first
one stands for. -/
def firstDigits (places : Nat) (x : Binary64) : Nat × Int :=
  let e := orderOf x
  let (a, b) := scaled x (e - places)
  let n := roundDiv a b
  if n = Nat.pow 10 (places + 1) then (n / 10, e + 1) else (n, e)

/-- An exponent as it is written: a sign and at least two digits. -/
def exponentText (mark : Char) (e : Int) : List Char :=
  let digits := Nat.toDigits 10 e.natAbs
  mark :: (if e < 0 then '-' else '+') ::
    (List.replicate (2 - digits.length) '0' ++ digits)

/-- A number with one digit before the point, so many places behind it, and an exponent. -/
def scientific (isMarked : Bool) (places : Nat) (x : Binary64) : List Char :=
  let (n, e) := firstDigits places x
  pointed isMarked places n ++ exponentText 'e' e

/-- Digits with a point without the zeros at their end, and without the point if nothing follows. -/
def withoutZeros (digits : List Char) : List Char :=
  if digits.contains '.' then
    let kept := digits.reverse.dropWhile (· == '0')
    ((if kept.head? = some '.' then kept.drop 1 else kept)).reverse
  else digits

/-- A number in so many digits, with an exponent where it is very large or small. -/
def general (isMarked : Bool) (precision : Nat) (x : Binary64) : List Char :=
  let count := max precision 1
  let (n, e) := firstDigits (count - 1) x
  let trim (digits : List Char) : List Char := if isMarked then digits else withoutZeros digits
  if -4 ≤ e ∧ e < count then trim (fixedDigits isMarked ((count : Int) - 1 - e).toNat x)
  else trim (pointed isMarked (count - 1) n) ++ exponentText 'e' e

/-- A number in hexadecimal digits, with a power of two. -/
def hexadecimal (isMarked : Bool) (precision : Option Nat) (x : Binary64) : List Char :=
  let bits := x.bits
  let exponent := bits / Nat.pow 2 52
  let fraction := bits % Nat.pow 2 52
  let whole := if exponent = 0 then 0 else Nat.pow 2 52
  let e : Int :=
    if bits = 0 then 0 else if exponent = 0 then -1022 else (exponent : Int) - 1023
  let places := precision.getD 13
  let n :=
    if places < 13 then roundDiv (whole + fraction) (Nat.pow 16 (13 - places))
    else (whole + fraction) * Nat.pow 16 (places - 13)
  let digits := hexDigits (places + 1) n
  let behind := digits.drop 1
  let behind :=
    if precision.isNone then (behind.reverse.dropWhile (· == '0')).reverse else behind
  let point := if behind = [] ∧ isMarked = false then [] else ['.']
  digits.take 1 ++ point ++ behind ++
    ('p' :: (if e < 0 then '-' else '+') :: Nat.toDigits 10 e.natAbs)

/-- A number with a point as a directive shows it. -/
def real (flags : List Char) (width : Nat) (precision : Option Nat) (kind : Char) (x : Real) :
    List UInt8 :=
  let isUpper := kind.isUpper
  let cased (cs : List Char) : List Char := if isUpper then cs.map Char.toUpper else cs
  let isMarked := flags.contains '#'
  match x with
  | .notANumber => numeral flags width false (signOf flags false) (cased ['n', 'a', 'n'])
  | .infinite negative => numeral flags width false (signOf flags negative) (cased ['i', 'n', 'f'])
  | .finite negative size =>
    let places := precision.getD 6
    let lead := signOf flags negative
    match kind.toLower with
    | 'e' => numeral flags width true lead (cased (scientific isMarked places size))
    | 'g' => numeral flags width true lead (cased (general isMarked places size))
    | 'a' =>
      numeral flags width true (lead ++ cased ['0', 'x'])
        (cased (hexadecimal isMarked precision size))
    | _ => numeral flags width true lead (cased (fixedDigits isMarked places size))

/-! ## Reading numbers with a point -/

/-- The exponent behind its mark, and what follows it; nothing is taken without a digit. -/
def takeExponent (mark : Char) (cs : List Char) : Int × List Char :=
  match cs with
  | c :: r =>
    if c.toLower = mark then
      let (negative, r) := Decimal.takeSign r
      let digits := r.takeWhile isDigit
      if digits = [] then (0, cs)
      else
        let n : Int := value digits
        (if negative then -n else n, r.drop digits.length)
    else (0, cs)
  | [] => (0, [])

/-- The hexadecimal digits at the head of a text, and what follows them. -/
def takeHexDigits (cs : List Char) : List Char × List Char :=
  let isHex (c : Char) : Bool := (hexValue? c).isSome
  (cs.takeWhile isHex, cs.dropWhile isHex)

/-- A number of so many halves, rounded; nothing where it is too large. -/
def ofHalves? (n : Nat) (e : Int) : Option Binary64 :=
  let e := if n = 0 then 0 else max (-3000) (min 3000 e)
  let x :=
    if 0 ≤ e then Binary64.ofRatio (n * Nat.pow 2 e.toNat) 1
    else Binary64.ofRatio n (Nat.pow 2 (-e).toNat)
  if x.isFinite then some x else none

/-- The size of the number at the head of a text, and what follows it: nothing in place of a size
that is too large, and nothing at all where there is no number. -/
def takeSize? (cs : List Char) : Option (Option Binary64 × List Char) :=
  let takeDigits (cs : List Char) := (cs.takeWhile isDigit, cs.dropWhile isDigit)
  let decimal (cs : List Char) : Option (Option Binary64 × List Char) :=
    let (whole, r) := takeDigits cs
    let (fraction, r) :=
      match r with
      | '.' :: r => if whole = [] ∧ !beginsInBase 10 r then ([], '.' :: r) else takeDigits r
      | r => ([], r)
    if whole = [] ∧ fraction = [] then none
    else
      let (e, r) := takeExponent 'e' r
      some (Decimal.magnitude (value (whole ++ fraction)) (e - (fraction.length : Int)), r)
  match cs with
  | '0' :: x :: r =>
    if x.toLower = 'x' then
      let (whole, rest) := takeHexDigits r
      let (fraction, rest) :=
        match rest with
        | '.' :: rest => takeHexDigits rest
        | rest => ([], rest)
      if whole = [] ∧ fraction = [] then decimal cs
      else
        let (e, rest) := takeExponent 'p' rest
        let n := hexNumber (whole ++ fraction)
        some (ofHalves? n (e - 4 * (fraction.length : Int)), rest)
    else decimal cs
  | cs => decimal cs
where
  /-- The number that hexadecimal digits stand for. -/
  hexNumber (digits : List Char) : Nat := (Shell.takeDigits 16 0 digits).1

/-- The number at the head of a text behind blanks and a sign, what follows it, and whether it is
out of range; nothing without a number. -/
def takeReal? (cs : List Char) : Option (Real × List Char × Bool) :=
  let (negative, r) := Decimal.takeSign (cs.dropWhile isMargin)
  let word (w : List Char) : Option (List Char) :=
    if (r.take w.length).map Char.toLower = w then some (r.drop w.length) else none
  match word "infinity".toList, word "inf".toList, word "nan".toList with
  | some rest, _, _ | none, some rest, _ => some (.infinite negative, rest, false)
  | none, none, some rest => some (.notANumber, rest, false)
  | none, none, none =>
    match takeSize? r with
    | some (some x, rest) =>
      let isTiny := x.mantissa ≠ 0 ∧ (x.mantissa.log2 : Int) + x.exponent < -1022
      some (.finite negative x, rest, isTiny)
    | some (none, rest) => some (.infinite negative, rest, true)
    | none => none

/-! ## Filling -/

/-- How far a format has been filled: the octets printed, the last ones first, the arguments left,
the complaints about arguments, and why nothing follows, if nothing does. -/
structure Filling where
  printed : List (List UInt8)
  arguments : List String
  complaints : List String
  /-- Whether nothing follows, and the message of a directive that is none. -/
  finish : Option (Option String)
  deriving Repr

/-- Work on a format. -/
abbrev Working := StateM Filling

/-- The next argument, if there is one. -/
def nextArgument : Working (Option String) := do
  let f ← get
  set { f with arguments := f.arguments.drop 1 }
  return f.arguments.head?

/-- Complains of an argument. -/
def complain (message : String) : Working Unit :=
  modify fun f => { f with complaints := message :: f.complaints }

/-- Complains of what is left of an argument behind a number. -/
def check (argument : String) (isWhole isAny isInRange : Bool) : Working Unit := do
  if argument = "" then return ()
  else if !isAny then complain s!"{argument}: expected numeric value"
  else if !isWhole then complain s!"{argument}: not completely converted"
  else if !isInRange then complain s!"{argument}: Numerical result out of range"

/-- The number of the octet behind a quote at the head of an argument. -/
def quotedValue? (argument : String) : Option Nat :=
  match argument.toList with
  | c :: _ =>
    if c = '"' ∨ c = '\'' then
      some ((((octets argument).drop 1).head?.map UInt8.toNat).getD 0)
    else none
  | [] => none

/-- The next argument as a whole number of 64 bits, with a sign or without one. -/
def nextWhole (signed : Bool) : Working Int := do
  match ← nextArgument with
  | none => return 0
  | some a =>
    match quotedValue? a with
    | some n => return n
    | none =>
      let top : Int := if signed then Int64.maxValue.toInt else (UInt64.size : Int) - 1
      let least : Int := if signed then Int64.minValue.toInt else -top
      match takeNumber? .marked a.toList with
      | none =>
        check a false false true
        return 0
      | some (n, rest) =>
        check a rest.isEmpty true (least ≤ n && n ≤ top)
        if signed then return max least (min top n)
        else if least ≤ n ∧ n ≤ top then return n % (UInt64.size : Int)
        else return top

/-- The next argument as a number with a point. -/
def nextReal : Working Real := do
  match ← nextArgument with
  | none => return .finite false ⟨0, 0⟩
  | some a =>
    match quotedValue? a with
    | some n => return .finite false (Binary64.ofNat n)
    | none =>
      match takeReal? a.toList with
      | none =>
        check a false false true
        return .finite false ⟨0, 0⟩
      | some (x, rest, isOut) =>
        check a rest.isEmpty true (!isOut)
        return x

/-- The number that a width or precision is. -/
def amountOf (a : Amount) : Working Int := do
  match a with
  | .fixed n => return n
  | .given => nextWhole true

/-- Prints octets. -/
def print (bytes : List UInt8) : Working Unit :=
  modify fun f => { f with printed := bytes :: f.printed }

/-- Fills a directive with arguments. -/
def fillDirective (d : Directive) : Working Unit := do
  let width ← (d.width.map amountOf).getD (pure 0)
  let precision ← (do
    match d.precision with
    | some a =>
      let n ← amountOf a
      return if n < 0 then none else some n.toNat
    | none => return none)
  let flags := if width < 0 then '-' :: d.flags else d.flags
  let width := width.natAbs
  let text (bytes : List UInt8) : Working Unit :=
    print (padded flags width (bytes.take (precision.getD bytes.length)))
  match d.kind with
  | 's' => text (octets ((← nextArgument).getD ""))
  | 'b' =>
    let argument := (← nextArgument).getD ""
    let (bytes, stop) := unescape argument.length argument.toList
    text bytes
    if stop then modify fun f => { f with finish := some none }
  | 'c' =>
    let bytes := octets ((← nextArgument).getD "")
    print (padded flags width [bytes.headD 0])
  | kind =>
    if kind = 'd' ∨ kind = 'i' then print (whole flags width precision kind (← nextWhole true))
    else if ['o', 'u', 'x', 'X'].contains kind then
      print (whole flags width precision kind (← nextWhole false))
    else print (real flags width precision kind (← nextReal))

/-- Fills the parts of a format, one after another. -/
def fillItems : List Item → Working Unit
  | [] => return ()
  | item :: rest => do
    match item with
    | .octet b => print [b]
    | .directive d => fillDirective d
    | .bad amounts message =>
      let _ ← amounts.mapM amountOf
      modify fun f => { f with finish := some (some message) }
    if (← get).finish.isNone then fillItems rest

/-- Fills a format as often as it takes to use all arguments; `fuel` is more than their number. -/
def fillAll (parts : List Item) : Nat → Working Unit
  | 0 => return ()
  | fuel + 1 => do
    let before := (← get).arguments.length
    fillItems parts
    let f ← get
    if f.finish.isNone && !f.arguments.isEmpty && f.arguments.length < before then
      fillAll parts fuel

/-- A format filled with arguments. -/
def fill (format : String) (arguments : List String) : Filling :=
  ((fillAll (items format) (arguments.length + 1)).run ⟨[], arguments, [], none⟩).2

/-- The octets that have been printed. -/
def Filling.bytes (f : Filling) : List UInt8 := f.printed.reverse.flatten

end CoverageRun.Shell.Format
