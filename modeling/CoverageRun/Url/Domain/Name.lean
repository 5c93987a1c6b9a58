/-
Domain names in ASCII: characters are mapped and composed, labels outside ASCII are checked and
encoded, and those that come encoded are read and checked in the same way.
-/
import CoverageRun.Url.Domain.Direction
import CoverageRun.Url.Domain.Joining
import CoverageRun.Url.Domain.Mapping
import CoverageRun.Url.Punycode

namespace CoverageRun.Url.Domain

open Text

/-! ## Characters -/

/-- Whether a character belongs to ASCII. -/
def isAscii (c : Char) : Bool := c.toNat < 0x80

/-- The characters of ASCII that no domain name may have. -/
def isForbidden (c : Char) : Bool :=
  c ≤ ' ' || c == '\x7f' ||
    ['%', '#', '/', ':', '<', '>', '?', '@', '[', '\\', ']', '^', '|'].contains c

/-! ## Labels -/

/-- What an encoded label begins with. -/
def codeMark : List Char := "xn--".toList

/-- The most characters of a label outside ASCII. -/
def labelLimit : Nat := 1000

/-- The most characters behind the mark of an encoded label. -/
def codeLimit : Nat := 2000

/-- Whether a label outside ASCII may be one: no mark begins it, and its joiners are in place. -/
def isSound (label : List Char) : Bool :=
  decide (label.length ≤ labelLimit) && !label.head?.any isMark && joinersFit [] label

/-- Reads an encoded label from behind its mark. What it stands for must lie outside ASCII and be
written as mapping and composition would leave it. -/
def readCode? (code : List Char) : Option (List Char) :=
  if codeLimit < code.length then none
  else
    match Punycode.read? code with
    | none => none
    | some label =>
      if !label.all isAscii && label.all isKept && compose label == label && isSound label then
        some label
      else none

/-- The label that a mapped and composed one stands for, if it may be one. -/
def readLabel? (label : List Char) : Option (List Char) :=
  match after? codeMark label with
  | some code => if label.all isAscii then readCode? code else none
  | none => if label.all isAscii || isSound label then some label else none

/-- A label in ASCII. -/
def writeLabel (label : List Char) : List Char :=
  if label.all isAscii then label else codeMark ++ Punycode.write label

/-! ## Names -/

/-- The labels of a name that need mapping or reading. -/
def internationalLabels? (cs : List Char) : Option (List (List Char)) :=
  match mapText? cs with
  | none => none
  | some mapped =>
    let name := compose mapped
    if name.any isForbidden then none
    else
      match (split '.' name).mapM readLabel? with
      | some labels => if areLaidOut labels then some labels else none
      | none => none

/-- A domain name in ASCII, if it may be one. A name that is in ASCII already only has its letters
made small. -/
def toAscii? (cs : List Char) : Option (List Char) :=
  let small := cs.map Char.toLower
  if cs.all isAscii && !(split '.' small).any (startsWith codeMark) then
    if small.any isForbidden then none else some small
  else (internationalLabels? cs).map fun labels => join ['.'] (labels.map writeLabel)

end CoverageRun.Url.Domain
