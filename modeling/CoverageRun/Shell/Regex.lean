/-
Regular expressions, basic and extended ones: they are read into tokens, these into an expression,
and of all its matches in a line the first one counts, and of those that begin there the longest.
-/
import CoverageRun.Numeral.Whole
import CoverageRun.Shell.Pattern

namespace CoverageRun.Shell

open Numeral

/-! ## Expressions -/

/-- A regular expression. -/
inductive Regex where
  | nothing
  | mark (m : Mark)
  | sequence (a b : Regex)
  | either (a b : Regex)
  | repeated (a : Regex) (least : Nat) (most : Option Nat)
  | group (number : Nat) (a : Regex)
  /-- What a group has matched before. -/
  | again (number : Nat)
  | atStart
  | atEnd
  /-- The edge of a word, or a place that is none. -/
  | atEdge (isEdge : Bool)
  deriving DecidableEq, Repr

namespace Regex

/-! ## Tokens -/

/-- What an expression is written with. -/
inductive Token where
  | opening
  | closing
  | bar
  | times (least : Nat) (most : Option Nat)
  | atom (r : Regex)
  deriving DecidableEq, Repr

/-- The numbers of an interval up to its closing brace, and what follows it. -/
def takeInterval? (cs : List Char) : Option (Token × List Char) :=
  let first := cs.takeWhile isDigit
  let r := cs.drop first.length
  let (isOpen, second, r) : Bool × List Char × List Char :=
    match r with
    | ',' :: r => (true, r.takeWhile isDigit, r.dropWhile isDigit)
    | r => (false, [], r)
  let r := if r.head? = some '\\' then r.drop 1 else r
  match r with
  | '\x7d' :: r =>
    let least := value first
    some (.times least
      (if isOpen then (if second = [] then none else some (value second)) else some least), r)
  | _ => none

/-- The atom or token that a character behind a backslash stands for where it has a meaning. -/
def escaped? (extended : Bool) (c : Char) : Option Token :=
  if isDigit c ∧ c ≠ '0' then some (.atom (.again (c.toNat - '0'.toNat)))
  else
    match c, extended with
    | '(', false => some .opening
    | ')', false => some .closing
    | '|', false => some .bar
    | '+', false => some (.times 1 none)
    | '?', false => some (.times 0 (some 1))
    | 'n', _ => some (.atom (.mark (.char '\n')))
    | 't', _ => some (.atom (.mark (.char '\t')))
    | 'w', _ =>
      some (.atom (.mark (.oneOf false [('a', 'z'), ('A', 'Z'), ('0', '9'), ('_', '_')])))
    | 'W', _ => some (.atom (.mark (.oneOf true [('a', 'z'), ('A', 'Z'), ('0', '9'), ('_', '_')])))
    | 's', _ => some (.atom (.mark (.oneOf false [('\t', '\r'), (' ', ' ')])))
    | 'S', _ => some (.atom (.mark (.oneOf true [('\t', '\r'), (' ', ' ')])))
    | 'b', _ | '<', _ | '>', _ => some (.atom (.atEdge true))
    | 'B', _ => some (.atom (.atEdge false))
    | _, _ => none

/-- The tokens that characters write; `atHead` says whether an expression begins here, and `fuel` is
at least the number of characters. -/
def tokensWithin (extended : Bool) : Nat → Bool → List Char → List Token
  | 0, _, _ | _, _, [] => []
  | fuel + 1, atHead, c :: r =>
    let goOn (t : Token) (atHead : Bool) (r : List Char) : List Token :=
      t :: tokensWithin extended fuel atHead r
    let literal : List Token := goOn (.atom (.mark (.char c))) false r
    match c with
    | '\\' =>
      match r with
      | [] => literal
      | e :: rest =>
        if e = '\x7b' ∧ extended = false then
          match takeInterval? rest with
          | some (t, rest) => goOn t false rest
          | none => goOn (.atom (.mark (.char e))) false rest
        else
          match escaped? extended e with
          | some .opening => goOn .opening true rest
          | some .bar => goOn .bar true rest
          | some t => goOn t false rest
          | none => goOn (.atom (.mark (.char e))) false rest
    | '.' => goOn (.atom (.mark .one)) false r
    | '[' =>
      let negated := r.head? == some '^'
      let signs := (if negated then r.drop 1 else r).map fun d => (d, d == '\\')
      match takeClass (r.length + 1) true signs with
      | some (ranges, rest) =>
        goOn (.atom (.mark (.oneOf negated ranges))) false (rest.map (·.1))
      | none => literal
    | '*' => if atHead then literal else goOn (.times 0 none) false r
    | '^' => if atHead || extended then goOn (.atom .atStart) atHead r else literal
    | '$' =>
      let isLast := r.isEmpty || Text.startsWith ['\\', ')'] r || Text.startsWith ['\\', '|'] r
      if isLast || extended then goOn (.atom .atEnd) false r else literal
    | c =>
      if !extended then literal
      else
        match c with
        | '(' => goOn .opening true r
        | ')' => goOn .closing false r
        | '|' => goOn .bar true r
        | '+' => if atHead then literal else goOn (.times 1 none) false r
        | '?' => if atHead then literal else goOn (.times 0 (some 1)) false r
        | '\x7b' =>
          match takeInterval? r with
          | some (t, rest) => goOn t false rest
          | none => literal
        | _ => literal

/-! ## Reading -/

/-- An atom with the repetitions that follow it. -/
def withTimes (a : Regex) : List Token → Regex × List Token
  | .times least most :: ts => withTimes (.repeated a least most) ts
  | ts => (a, ts)

mutual

/-- The alternatives at the head of tokens, with the number of groups opened before; then the tokens
left, and the number of groups. -/
def readEither : Nat → Nat → List Token → Regex × List Token × Nat
  | 0, n, ts => (.nothing, ts, n)
  | fuel + 1, n, ts =>
    let (a, ts, n) := readSequence fuel n ts
    match ts with
    | .bar :: ts =>
      let (b, ts, n) := readEither fuel n ts
      (.either a b, ts, n)
    | ts => (a, ts, n)

/-- The atoms at the head of tokens, one after another. -/
def readSequence : Nat → Nat → List Token → Regex × List Token × Nat
  | 0, n, ts => (.nothing, ts, n)
  | fuel + 1, n, ts =>
    match ts with
    | .atom a :: ts =>
      let (a, ts) := withTimes a ts
      let (b, ts, n) := readSequence fuel n ts
      (.sequence a b, ts, n)
    | .opening :: ts =>
      let number := n + 1
      let (a, ts, n) := readEither fuel number ts
      let (a, ts) := withTimes (.group number a) (ts.drop 1)
      let (b, ts, n) := readSequence fuel n ts
      (.sequence a b, ts, n)
    | .times _ _ :: ts => readSequence fuel n ts
    | ts => (.nothing, ts, n)

end

/-- The regular expression that characters write. -/
def ofChars (extended : Bool) (cs : List Char) : Regex :=
  (readEither (2 * cs.length + 2) 0 (tokensWithin extended cs.length true cs)).1

/-! ## Matching -/

/-- Where a match is: how far it has come, and where groups have begun and ended. -/
structure Reached where
  place : Nat
  groups : List (Nat × Nat × Nat)
  deriving Repr

/-- Repeats a step, as often as it can be done first; `fuel` bounds the number of times. -/
def iterate (step : Reached → List Reached) :
    Nat → Nat → Option Nat → Reached → List Reached
  | 0, least, _, m => if least = 0 then [m] else []
  | fuel + 1, least, most, m =>
    if most = some 0 then [m]
    else
      let further := (step m).filter fun n => m.place < n.place || least != 0
      let rest := further.flatMap (iterate step fuel (least - 1) (most.map (· - 1)))
      if least = 0 then rest ++ [m] else rest

/-- A character of which words are made. -/
def isWordChar (c : Char) : Bool :=
  ('a' ≤ c && c ≤ 'z') || ('A' ≤ c && c ≤ 'Z') || isDigit c || c == '_'

/-- All places that an expression can lead to from one. -/
def reach (cs : Array Char) : Regex → Reached → List Reached
  | .nothing, m => [m]
  | .mark k, m =>
    match cs[m.place]? with
    | some c => if k.accepts c then [{ m with place := m.place + 1 }] else []
    | none => []
  | .sequence a b, m => (reach cs a m).flatMap (reach cs b)
  | .either a b, m => reach cs a m ++ reach cs b m
  | .repeated a least most, m => iterate (reach cs a) (cs.size + least + 1) least most m
  | .group n a, m =>
    (reach cs a m).map fun k => { k with groups := (n, m.place, k.place) :: k.groups }
  | .again n, m =>
    match m.groups.lookup n with
    | some (first, last) =>
      let text := cs.extract first last
      if cs.extract m.place (m.place + text.size) = text then
        [{ m with place := m.place + text.size }]
      else []
    | none => []
  | .atStart, m => if m.place = 0 then [m] else []
  | .atEnd, m => if m.place = cs.size then [m] else []
  | .atEdge isEdge, m =>
    let before := m.place != 0 && ((cs[m.place - 1]?).map isWordChar).getD false
    let behind := ((cs[m.place]?).map isWordChar).getD false
    if (before != behind) = isEdge then [m] else []

/-- A match in a line: where it begins and ends, and where its groups do. -/
structure Found where
  first : Nat
  last : Nat
  groups : List (Nat × Nat × Nat)
  deriving Repr

/-- The longest match that begins at a place. -/
def at? (r : Regex) (line : Array Char) (place : Nat) : Option Found :=
  (reach line r ⟨place, []⟩).foldl (fun best m =>
    match best with
    | some b => if b.last < m.place then some ⟨place, m.place, m.groups⟩ else best
    | none => some ⟨place, m.place, m.groups⟩) none

/-- The first match in a line that begins at a place or behind it. -/
def find? (r : Regex) (line : Array Char) (place : Nat) : Option Found :=
  (List.range (line.size + 1 - place)).findSome? fun n => r.at? line (place + n)

/-- All matches in a line, none of them inside another; `fuel` bounds their number. -/
def allWithin (r : Regex) (line : Array Char) : Nat → Nat → List Found
  | 0, _ => []
  | fuel + 1, place =>
    if line.size < place then []
    else
      match r.find? line place with
      | none => []
      | some f => f :: allWithin r line fuel (if f.first = f.last then f.last + 1 else f.last)

/-- All matches in a line, none of them inside another. -/
def all (r : Regex) (line : List Char) : List Found :=
  let line := line.toArray
  r.allWithin line (line.size + 1) 0

end Regex

end CoverageRun.Shell
