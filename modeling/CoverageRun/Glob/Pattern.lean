/-
Glob patterns: their tokens, the reading of a pattern from text, and what can be wrong with one.
-/
import CoverageRun.Text.Split

namespace CoverageRun.Glob

/-! ## Tokens -/

/-- A token of a pattern. -/
inductive Token where
  /-- The character itself. -/
  | literal (c : Char)
  /-- `?`: one octet. -/
  | any
  /-- `*`: any octets. -/
  | star
  /-- Double star at the head: nothing or a slash, or anything that ends in a slash. -/
  | leading
  /-- Double star at the end, after a slash: a slash and anything. -/
  | trailing
  /-- Double star between slashes: a slash, or anything between two slashes. -/
  | inner
  /-- `[…]`: one octet out of ranges of characters, or out of none of them. -/
  | oneOf (negated : Bool) (ranges : List (Char × Char))
  /-- `{…}`: one of several patterns. -/
  | group (alternatives : List (List Token))
  deriving Repr, Inhabited

/-- What can be wrong with a pattern. -/
inductive Fault where
  | unclosedClass
  | reversedRange (low high : Char)
  | unopenedGroup
  | unclosedGroup
  | danglingEscape
  deriving DecidableEq, Repr

/-- The wording of a fault. -/
def Fault.text : Fault → String
  | .unclosedClass => "unclosed character class; missing ']'"
  | .reversedRange low high =>
    "invalid range; '".push low ++ "' > '".push high ++ "'"
  | .unopenedGroup =>
    "unopened alternate group; missing '\x7b' (maybe escape '\x7d' with '[\x7d]'?)"
  | .unclosedGroup =>
    "unclosed alternate group; missing '\x7d' (maybe escape '\x7b' with '[\x7b]'?)"
  | .danglingEscape => "dangling '\\'"

/-- The message for a pattern with a fault. -/
def Fault.message (pattern : String) (f : Fault) : String :=
  s!"error parsing glob '{pattern}': {f.text}"

/-! ## Classes -/

/-- The reading of a class: the ranges so far, the last one first, and whether a dash waits for the
upper end of the last range. -/
structure ClassScan where
  ranges : List (Char × Char)
  waiting : Bool

/-- A class with one more character, or with the upper end that its last range was waiting for. -/
def ClassScan.add (s : ClassScan) (c : Char) : Except Fault ClassScan :=
  match s.waiting, s.ranges with
  | true, (low, _) :: r =>
    if c < low then .error (.reversedRange low c) else .ok ⟨(low, c) :: r, false⟩
  | _, r => .ok ⟨(c, c) :: r, false⟩

/-- The ranges of a class that has ended; a dash at the end stands for itself. -/
def ClassScan.close (s : ClassScan) : List (Char × Char) :=
  ((if s.waiting then [('-', '-')] else []) ++ s.ranges).reverse

/-- Reads a class after its first character, up to the closing bracket. -/
def readClass (s : ClassScan) : List Char → Except Fault (List (Char × Char) × List Char)
  | [] => .error .unclosedClass
  | ']' :: r => .ok (s.close, r)
  | c :: r =>
    if c = '-' ∧ s.waiting = false then readClass { s with waiting := true } r
    else do
      let s ← s.add c
      readClass s r

/-- Reads a class after its opening bracket and the mark that negates it. A closing bracket or a
dash as the first character stands for itself. -/
def readClassBody (negated : Bool) : List Char → Except Fault (Token × List Char)
  | [] => .error .unclosedClass
  | c :: r =>
    (readClass ⟨[(c, c)], false⟩ r).map fun (ranges, rest) => (.oneOf negated ranges, rest)

/-- Reads a class after its opening bracket. -/
def readClassStart : List Char → Except Fault (Token × List Char)
  | '!' :: r | '^' :: r => readClassBody true r
  | cs => readClassBody false cs

theorem readClass_length {s : ClassScan} {cs : List Char} {out : List (Char × Char) × List Char}
    (h : readClass s cs = .ok out) : out.2.length < cs.length := by
  fun_induction readClass s cs with
  | case1 => simp at h
  | case2 s r => cases h; simp
  | case3 s c r _ _ ih => have := ih h; simp; omega
  | case4 s c r _ _ ih =>
    cases hs : s.add c with
    | error e => simp [hs, bind, Except.bind] at h
    | ok s' => simp [hs, bind, Except.bind] at h; have := ih s' h; simp; omega

theorem readClassBody_length {negated : Bool} {cs : List Char} {out : Token × List Char}
    (h : readClassBody negated cs = .ok out) : out.2.length < cs.length := by
  cases cs with
  | nil => simp [readClassBody] at h
  | cons c r =>
    simp only [readClassBody] at h
    cases hr : readClass ⟨[(c, c)], false⟩ r with
    | error e => simp [hr, Except.map] at h
    | ok p =>
      simp only [hr, Except.map, Except.ok.injEq] at h
      have := readClass_length hr
      subst h
      simp
      omega

theorem readClassStart_length {cs : List Char} {out : Token × List Char}
    (h : readClassStart cs = .ok out) : out.2.length < cs.length := by
  unfold readClassStart at h
  split at h
  · have := readClassBody_length h; simp; omega
  · have := readClassBody_length h; simp; omega
  · exact readClassBody_length h

/-! ## Patterns -/

/-- A group that is open: the tokens before it and its alternatives so far, the last ones first. -/
structure OpenGroup where
  before : List Token
  alternatives : List (List Token)

/-- The reading of a pattern: the tokens of the current alternative, the last one first, the groups
it stands in, and the last character that was read. -/
structure Scan where
  tokens : List Token
  groups : List OpenGroup
  last : Option Char

namespace Scan

def push (s : Scan) (t : Token) : Scan := { s with tokens := t :: s.tokens }

/-- Opens a group. -/
def openGroup (s : Scan) : Scan := { s with tokens := [], groups := ⟨s.tokens, []⟩ :: s.groups }

/-- Begins the next alternative of the innermost group; outside groups a comma is a character. -/
def nextAlternative (s : Scan) : Scan :=
  match s.groups with
  | [] => s.push (.literal ',')
  | g :: gs =>
    { s with
      tokens := []
      groups := { g with alternatives := s.tokens.reverse :: g.alternatives } :: gs }

/-- Closes the innermost group. -/
def closeGroup? (s : Scan) : Option Scan :=
  match s.groups with
  | [] => none
  | g :: gs =>
    some { s with
      tokens := .group (s.tokens.reverse :: g.alternatives).reverse :: g.before
      groups := gs }

/-- Puts `t` in the place of the slash before it. After a double star at either end nothing is
added. -/
def replaceSlash (s : Scan) (t : Token) : Scan :=
  match s.tokens with
  | .leading :: _ => s
  | .trailing :: _ => s
  | _ :: r => { s with tokens := t :: r }
  | [] => s.push t

/-- Whether a double star may stand for whole directories: it comes after a slash, or first in an
alternative that is not empty before it. -/
def afterBoundary (s : Scan) : Bool :=
  s.last == some '/' || (!s.groups.isEmpty && (s.last == some ',' || s.last == some '{'))

/-- Reads a double star; `rest` follows it. -/
def doubleStar (s : Scan) (rest : List Char) : Scan × List Char :=
  let twoStars := ({ (s.push .star).push .star with last := some '*' }, rest)
  if s.tokens.isEmpty then
    match rest with
    | [] => ({ s.push .leading with last := some '*' }, [])
    | '/' :: r => ({ s.push .leading with last := some '/' }, r)
    | _ => twoStars
  else if s.afterBoundary then
    match rest with
    | [] => ({ s.replaceSlash .trailing with last := some '*' }, [])
    | '/' :: r => ({ s.replaceSlash .inner with last := some '/' }, r)
    | c :: r =>
      if !s.groups.isEmpty && (c == ',' || c == '}') then
        ({ s.replaceSlash .trailing with last := some '*' }, c :: r)
      else twoStars
  else twoStars

theorem doubleStar_length (s : Scan) (rest : List Char) :
    (s.doubleStar rest).2.length ≤ rest.length := by
  unfold doubleStar
  grind

/-- Reads the rest of a pattern. -/
def run (s : Scan) (cs : List Char) : Except Fault (List Token) :=
  match cs with
  | [] => if s.groups.isEmpty then .ok s.tokens.reverse else .error .unclosedGroup
  | '?' :: r => run { s.push .any with last := some '?' } r
  | '*' :: '*' :: r =>
    have := s.doubleStar_length r
    run (s.doubleStar r).1 (s.doubleStar r).2
  | '*' :: r => run { s.push .star with last := some '*' } r
  | '[' :: r =>
    match h : readClassStart r with
    | .error e => .error e
    | .ok (t, rest) =>
      have : rest.length < r.length := readClassStart_length h
      run { s.push t with last := some ']' } rest
  | '{' :: r => run { s.openGroup with last := some '{' } r
  | '}' :: r =>
    match s.closeGroup? with
    | none => .error .unopenedGroup
    | some s => run { s with last := some '}' } r
  | ',' :: r => run { s.nextAlternative with last := some ',' } r
  | ['\\'] => .error .danglingEscape
  | '\\' :: c :: r => run { s.push (.literal c) with last := some c } r
  | c :: r => run { s.push (.literal c) with last := some c } r
termination_by cs.length
decreasing_by all_goals simp <;> omega

end Scan

/-- A pattern: its tokens and the text it was read from. -/
structure Pattern where
  text : String
  tokens : List Token
  deriving Repr, Inhabited

/-- Reads a pattern. -/
def Pattern.parse (text : String) : Except Fault Pattern :=
  (Scan.run ⟨[], [], none⟩ text.toList).map (⟨text, ·⟩)

end CoverageRun.Glob
