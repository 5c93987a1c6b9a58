/-
From an expanded word to the fields a command is given: what came of unquoted expansions is split at
blanks, and patterns are replaced with the file names they match.
-/
import CoverageRun.Shell.Pattern

namespace CoverageRun.Shell

open Files

/-! ## Expanded words -/

/-- A part of an expanded word. -/
inductive Atom where
  /-- A character that stands in the word. -/
  | plain (c : Char)
  /-- A character that came of an expansion outside quotes. -/
  | loose (c : Char)
  /-- A character that stood in quotes. -/
  | exact (c : Char)
  /-- The mark of quotes: with it a field may be empty. -/
  | mark
  /-- The beginning of what an expansion gives that may be split: only where one argument ends if it
  stands in quotes. -/
  | edge (quoted : Bool)
  /-- The end of an argument. -/
  | gap
  deriving DecidableEq, Repr

/-- The parts that a text from an expansion gives. -/
def atomsOf (quoted : Bool) (text : String) : List Atom :=
  if quoted then .mark :: text.toList.map .exact else .edge false :: text.toList.map .loose

/-- The characters of arguments, with the ends of all but the last. -/
def joinedAtoms (quoted : Bool) (texts : List String) : List Atom :=
  let shown (text : String) : List Atom := text.toList.map (if quoted then .exact else .loose)
  ((texts.map shown).intersperse [.gap]).flatten

/-- The parts that the arguments give, each one a field of its own. -/
def atomsOfAll (quoted : Bool) (texts : List String) : List Atom :=
  if quoted && texts.isEmpty then [] else .edge quoted :: joinedAtoms quoted texts

/-- The parts of a word as what came of an expansion. -/
def loosened : List Atom → List Atom
  | .plain c :: .plain d :: r =>
    match loosened (.plain d :: r) with
    | .edge false :: r => .edge false :: .loose c :: r
    | r => .edge false :: .loose c :: r
  | .plain c :: r => .edge false :: .loose c :: loosened r
  | a :: r => a :: loosened r
  | [] => []

/-- The character of a part of a pattern, and whether it stands for itself only. -/
def Atom.sign? : Atom → Option Sign
  | .plain c | .loose c => some (c, false)
  | .exact c => some (c, true)
  | _ => none

/-- The text that an expanded word gives where it is not split. -/
def textOf (atoms : List Atom) : String :=
  String.ofList (atoms.filterMap fun a =>
    match a with
    | .gap => some ' '
    | a => a.sign?.map (·.1))

/-- The pattern that an expanded word gives. -/
def patternOf (atoms : List Atom) : Pattern := Pattern.ofSigns (atoms.filterMap Atom.sign?)

/-! ## Fields -/

/-- The characters that end a field where nothing else is said. -/
def usualBreaks : List Char := [' ', '\t', '\n']

/-- Where the splitting of a word is. -/
structure Splitting where
  /-- Whether what is split are quoted arguments, and whether those before it were. -/
  inQuoted : Bool
  behindQuoted : Bool
  /-- Whether the last field was ended by a blank, so that more blanks and another break belong to
  its end. -/
  behindBlank : Bool
  /-- The field so far, its last part first. -/
  field : List Atom

/-- Whether a part of an expanded word ends a field, and whether as a blank. -/
def breakOf (breaks : List Char) : Atom → Bool × Bool
  | .gap => (true, true)
  | .loose c => (breaks.contains c, breaks.contains c && usualBreaks.contains c)
  | _ => (false, false)

/-- The fields of an expanded word: what came of an expansion ends them at characters among
`breaks`. Blanks at the head of a field do not count, unless quoted arguments stand before. -/
def splitAtoms (breaks : List Char) : Splitting → List Atom → List (List Atom)
  | s, [] => if s.inQuoted || s.field ≠ [] then [s.field.reverse] else []
  | s, .edge quoted :: r => splitAtoms breaks ⟨quoted, s.inQuoted, false, s.field⟩ r
  | s, a :: r =>
    let (isBreak, isBlank) := breakOf breaks a
    if !isBreak then splitAtoms breaks { s with behindBlank := false, field := a :: s.field } r
    else if s.behindBlank then splitAtoms breaks { s with behindBlank := isBlank } r
    else
      let isBlank := isBlank && !s.inQuoted && !s.behindQuoted
      if isBlank && s.field = [] then splitAtoms breaks s r
      else s.field.reverse :: splitAtoms breaks { s with behindBlank := isBlank, field := [] } r

/-- The fields of an expanded word; no file names are looked for where `asIs` says so. -/
def fieldsOf (breaks : List Char) (asIs : Bool) (t : Tree) (atoms : List Atom) : List String :=
  (splitAtoms breaks ⟨false, false, false, []⟩ atoms).flatMap fun f =>
    let pattern := patternOf f
    match if !asIs && pattern.isOpen then pattern.paths t else [] with
    | [] => [textOf f]
    | paths => paths

/-! ## Fields of a line -/

/-- The text after the blanks among `breaks` that it begins with. -/
def skipBlanks (breaks : List Char) (text : List Sign) : List Sign :=
  text.dropWhile fun c => breaks.contains c.1 && !c.2 && usualBreaks.contains c.1

/-- The first word of a text, and what stands behind the break after it with its blanks. -/
def cutWord (breaks : List Char) (text : List Sign) : List Sign × List Sign :=
  let isBreak (c : Sign) : Bool := breaks.contains c.1 && !c.2
  let word := text.takeWhile fun c => !isBreak c
  let rest := skipBlanks breaks (text.drop word.length)
  match rest with
  | c :: r =>
    if isBreak c then (word, skipBlanks breaks r) else (word, rest)
  | [] => (word, [])

/-- How much of a text is left before the break that ends it, if one does: `cut` is where the last
break begins that nothing has followed, `behindBlank` says whether it was a blank so far, and
`place` is where the rest of the text is. Characters that stand for themselves change nothing. -/
def endOf (breaks : List Char) (cut : Option Nat) (behindBlank : Bool) (place : Nat) :
    List Sign → Option Nat
  | [] => cut
  | (_, true) :: r => endOf breaks cut false (place + 1) r
  | (c, false) :: r =>
    let isBreak := breaks.contains c
    if isBreak && usualBreaks.contains c then
      endOf breaks (cut.or (some place)) behindBlank (place + 1) r
    else endOf breaks (if isBreak && behindBlank then cut else none) false (place + 1) r

/-- The last word of a text: all of it but a break at its end, which may have blanks around it. -/
def lastWord (breaks : List Char) (text : List Sign) : List Sign :=
  let isBreak (c : Sign) : Bool := breaks.contains c.1 && !c.2
  let word := text.takeWhile fun c => !isBreak c
  match text.drop word.length with
  | [] => word
  | c :: r =>
    let isBlank := usualBreaks.contains c.1
    match endOf breaks (some word.length) isBlank (word.length + 1) r with
    | some n => text.take n
    | none => text

/-- The words of a text for so many names; the last one takes the rest of it. -/
def wordsFor (breaks : List Char) : Nat → List Sign → List (List Sign)
  | 0, _ => []
  | 1, text => [lastWord breaks text]
  | n + 1, text =>
    let (word, rest) := cutWord breaks text
    word :: wordsFor breaks n rest

/-- The words of a line for so many names. Characters that stand for themselves are no breaks. -/
def lineWords (breaks : List Char) (count : Nat) (text : List Sign) : List String :=
  (wordsFor breaks count (skipBlanks breaks text)).map fun w => String.ofList (w.map (·.1))

end CoverageRun.Shell
