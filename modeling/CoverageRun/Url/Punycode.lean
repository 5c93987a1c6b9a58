/-
Labels of domain names outside ASCII. The other characters of a label are written behind its ASCII
ones as numbers to base 36: for each in order of value, how far on it stands.
-/

namespace CoverageRun.Url.Punycode

/-! ## Digits -/

/-- The digit for a number below 36. -/
def digit (n : Nat) : Char :=
  if n < 26 then Char.ofNat ('a'.toNat + n) else Char.ofNat ('0'.toNat + (n - 26))

/-- The number a digit stands for. -/
def value? (c : Char) : Option Nat :=
  if 'a' ≤ c && c ≤ 'z' then some (c.toNat - 'a'.toNat)
  else if 'A' ≤ c && c ≤ 'Z' then some (c.toNat - 'A'.toNat)
  else if '0' ≤ c && c ≤ '9' then some (c.toNat - '0'.toNat + 26)
  else none

/-- The least number that is no last digit at place `k`. -/
def threshold (k bias : Nat) : Nat := min 26 (max 1 (k - bias))

/-- The bias after a number was written when `count` characters are in place. -/
def adapt (delta count : Nat) (first : Bool) : Nat :=
  let d := if first then delta / 700 else delta / 2
  go 16 (d + d / count) 0
where
  go : Nat → Nat → Nat → Nat
    | 0, d, k => k + 36 * d / (d + 38)
    | fuel + 1, d, k => if 455 < d then go fuel (d / 35) (k + 36) else k + 36 * d / (d + 38)

/-- A number in digits, the lowest first; `fuel` bounds their count. -/
def writeNumber : Nat → Nat → Nat → Nat → List Char
  | 0, _, _, q => [digit q]
  | fuel + 1, bias, k, q =>
    let t := threshold k bias
    if q < t then [digit q]
    else digit (t + (q - t) % (36 - t)) :: writeNumber fuel bias (k + 36) ((q - t) / (36 - t))

/-! ## Writing -/

/-- The state of writing a label: the value reached, the distance from it, the bias, and how many
characters are in place. -/
structure Writing where
  n : Nat
  delta : Nat
  bias : Nat
  done : Nat
  out : List Char

/-- Writes all characters of the value `m`, going through the label once. -/
def writeValue (basic m : Nat) (w : Writing) (label : List Char) : Writing :=
  let w := { w with delta := w.delta + (m - w.n) * (w.done + 1), n := m }
  let w := label.foldl (fun w c =>
    if c.toNat < m then { w with delta := w.delta + 1 }
    else if c.toNat = m then
      { w with
        out := w.out ++ writeNumber 16 w.bias 36 w.delta
        bias := adapt w.delta (w.done + 1) (w.done == basic)
        delta := 0
        done := w.done + 1 }
    else w) w
  { w with delta := w.delta + 1, n := m + 1 }

/-- The values of the characters outside ASCII, ascending, each once. -/
def values (label : List Char) : List Nat :=
  (((label.map Char.toNat).filter (0x80 ≤ ·)).mergeSort).foldr
    (fun n ns => if ns.head? = some n then ns else n :: ns) []

/-- A label in ASCII characters, without the mark in front. -/
def write (label : List Char) : List Char :=
  let basic := label.filter (·.toNat < 0x80)
  let start : Writing := ⟨0x80, 0, 72, basic.length, if basic = [] then [] else basic ++ ['-']⟩
  ((values label).foldl (fun w m => writeValue basic.length m w label) start).out

/-! ## Reading -/

/-- Reads a number from digits: it, and the rest. -/
def readNumber (bias : Nat) : Nat → Nat → Nat → List Char → Option (Nat × List Char)
  | _, _, _, [] => none
  | k, weight, i, c :: r => do
    let d ← value? c
    let i := i + d * weight
    let t := threshold k bias
    if d < t then some (i, r) else readNumber bias (k + 36) (weight * (36 - t)) i r

/-- The state of reading a label: whether no character is in place yet, the value reached, the place
after the last one, and the bias. -/
structure Reading where
  first : Bool
  n : Nat
  place : Nat
  bias : Nat
  out : List Char

/-- Puts the character in place that a number stands for. -/
def Reading.put? (r : Reading) (number : Nat) : Option Reading :=
  let count := r.out.length + 1
  let n := r.n + number / count
  let place := number % count
  if 0x10FFFF < n ∨ (0xD800 ≤ n ∧ n ≤ 0xDFFF) then none
  else some {
    first := false
    n
    place := place + 1
    bias := adapt (number - r.place) count r.first
    out := r.out.take place ++ Char.ofNat n :: r.out.drop place }

/-- Reads the numbers of a label; `fuel` bounds their count. -/
def readCharacters : Nat → Reading → List Char → Option (List Char)
  | 0, r, _ => some r.out
  | _ + 1, r, [] => some r.out
  | fuel + 1, r, cs => do
    let (number, rest) ← readNumber r.bias 36 1 r.place cs
    readCharacters fuel (← r.put? number) rest

/-- The label that ASCII characters stand for. Its own ASCII characters come first, with a hyphen
behind them if there are any. -/
def read? (cs : List Char) : Option (List Char) :=
  let tail := (cs.reverse.takeWhile (· ≠ '-')).reverse
  match cs.take (cs.length - tail.length) with
  | ['-'] => none
  | basic => readCharacters cs.length ⟨true, 0x80, 0, 72, basic.dropLast⟩ tail

end CoverageRun.Url.Punycode
