/-
Matching octets against a pattern. The places a match may have reached are marked, one mark before
each octet and one at the end; every token turns marks into marks in one pass over the text, so
matching takes no longer than the text and the pattern are long together.
-/
import CoverageRun.Glob.Pattern
import CoverageRun.Text.Octets

namespace CoverageRun.Glob

open Text

/-! ## Classes -/

/-- The UTF-8 octets of a character. -/
def charOctets (c : Char) : List UInt8 := octets (String.singleton c)

/-- The octets a range of characters stands for, as ranges of octets. The octets of both ends count
one by one, except that from the last octet of the lower end to the first of the upper end all
octets count. -/
def octetRanges (range : Char × Char) : List (UInt8 × UInt8) :=
  if range.1 = range.2 then (charOctets range.1).map fun b => (b, b)
  else
    let low := charOctets range.1
    let high := charOctets range.2
    low.dropLast.map (fun b => (b, b)) ++ [(low.getLast?.getD 0, high.head?.getD 0)] ++
      high.tail.map (fun b => (b, b))

/-- Whether a class takes an octet. -/
def classTakes (negated : Bool) (ranges : List (Char × Char)) (b : UInt8) : Bool :=
  ((ranges.flatMap octetRanges).any fun r => r.1 ≤ b && b ≤ r.2) != negated

/-! ## Marks -/

/-- Marks before each octet of a text and at its end. -/
abbrev Marks := List Bool

namespace Marks

/-- A match that has not begun: it stands at the head of the text. -/
def start (text : List UInt8) : Marks := true :: text.map fun _ => false

/-- One octet further, where the octet passes a test. -/
def advance (test : UInt8 → Bool) (text : List UInt8) (marks : Marks) : Marks :=
  false :: List.zipWith (fun m b => m && test b) marks text

/-- Any number of octets further. -/
def spread (reached : Bool) : Marks → Marks
  | [] => []
  | m :: r => (reached || m) :: spread (reached || m) r

/-- What is marked on either side. -/
def union (a b : Marks) : Marks := List.zipWith (· || ·) a b

/-- Whether the end of the text is marked. -/
def atEnd (marks : Marks) : Bool := marks.getLast?.getD false

end Marks

open Marks

/-- One slash further. -/
def passSlash (text : List UInt8) (marks : Marks) : Marks :=
  advance (· == '/'.toUInt8) text marks

/-- Some octets further, one after another. -/
def passOctets (text : List UInt8) (marks : Marks) (bytes : List UInt8) : Marks :=
  bytes.foldl (fun marks b => advance (· == b) text marks) marks

/-! ## Tokens -/

mutual

/-- A token that stands for nothing at all: a group of such alternatives. -/
def Token.isNothing : Token → Bool
  | .group alternatives => allAreNothing alternatives
  | _ => false

/-- Tokens that stand for nothing at all. -/
def areNothing : List Token → Bool
  | [] => true
  | t :: r => t.isNothing && areNothing r

def allAreNothing : List (List Token) → Bool
  | [] => true
  | a :: r => areNothing a && allAreNothing r

end

mutual

/-- The places reached after a token. Alternatives that stand for nothing do not count; a group of
only such alternatives takes nothing. -/
def Token.pass (text : List UInt8) (marks : Marks) : Token → Marks
  | .literal c => passOctets text marks (charOctets c)
  | .any => advance (fun _ => true) text marks
  | .star => spread false marks
  | .leading => union marks (passSlash text (spread false marks))
  | .trailing => spread false (passSlash text marks)
  | .inner =>
    let once := passSlash text marks
    union once (passSlash text (spread false once))
  | .oneOf negated ranges => advance (classTakes negated ranges) text marks
  | .group alternatives =>
    if allAreNothing alternatives then marks
    else passAny text marks (marks.map fun _ => false) alternatives

/-- The places reached after tokens in a row. -/
def passAll (text : List UInt8) (marks : Marks) : List Token → Marks
  | [] => marks
  | t :: r => passAll text (t.pass text marks) r

/-- The places reached after any of several alternatives, added to `reached`. -/
def passAny (text : List UInt8) (marks reached : Marks) : List (List Token) → Marks
  | [] => reached
  | a :: r =>
    let reached := if areNothing a then reached else union reached (passAll text marks a)
    passAny text marks reached r

end

/-! ## Patterns -/

namespace Pattern

/-- Whether a pattern matches octets from end to end. A lone double star matches everything. -/
def takes (p : Pattern) (text : List UInt8) : Bool :=
  match p.tokens with
  | [.leading] => true
  | tokens => (passAll text (Marks.start text) tokens).atEnd

/-- Whether a pattern matches a text from end to end. -/
def accepts (p : Pattern) (s : String) : Bool := p.takes (octets s)

end Pattern

/-! ## Patterns about the last name -/

/-- The literal characters that tokens consist of, if they are all literal. -/
def literals? : List Token → Option (List Char)
  | [] => some []
  | .literal c :: r => (literals? r).map (c :: ·)
  | _ :: _ => none

/-- The literal characters after a leading double star and before a trailing star. -/
def isLiteralRun (tokens : List Token) : Bool :=
  match literals? tokens with
  | some cs => !cs.isEmpty
  | none => false

/-- `**` and a name: the pattern is about the last name alone. -/
def namesFile (tokens : List Token) : Bool :=
  match tokens with
  | .leading :: rest =>
    match literals? rest with
    | some cs => !cs.isEmpty && !cs.contains '/'
    | none => false
  | _ => false

/-- A star and an extension, after a double star or not. -/
def namesExtension (tokens : List Token) : Bool :=
  let tokens :=
    match tokens with
    | .leading :: rest => rest
    | tokens => tokens
  match tokens with
  | .star :: .literal '.' :: rest =>
    match literals? rest with
    | some cs => !cs.contains '.' && !cs.contains '/'
    | none => false
  | _ => false

/-- Literal characters with a star or a trailing double star at the end. -/
def namesBeginning (tokens : List Token) : Bool :=
  match tokens.getLast? with
  | some .star => isLiteralRun tokens.dropLast
  | some .trailing => (literals? tokens.dropLast).isSome
  | _ => isLiteralRun tokens

/-- Literal characters with a star, a leading double star or both at the head. -/
def namesEnd (tokens : List Token) : Bool :=
  let (slash, tokens) :=
    match tokens with
    | .leading :: .literal c :: rest => (true, Token.literal c :: rest)
    | .leading :: rest => (false, rest)
    | tokens => (false, tokens)
  let (present, tokens) :=
    match tokens with
    | .star :: rest => (true, rest)
    | tokens => (!tokens.isEmpty, tokens)
  match literals? tokens with
  | some cs => present && (slash || (!cs.isEmpty && cs != ['/']))
  | none => false

/-- Whether the literal characters at the end of a pattern hold an extension with its dot. -/
def endsInExtension (tokens : List Token) : Bool :=
  let tail := tokens.reverse.takeWhile fun t => (literals? [t]).isSome
  match literals? tail with
  | some cs => cs.contains '.' && !(cs.takeWhile (· != '.')).contains '/'
  | none => false

/-- Whether a pattern is decided by the last name of a path: it names a file, or an extension, or
ends in an extension without being about a whole path, its beginning or its end. -/
def isAboutName (tokens : List Token) : Bool :=
  namesFile tokens ||
    (!isLiteralRun tokens &&
      (namesExtension tokens ||
        (!namesBeginning tokens && !namesEnd tokens && endsInExtension tokens)))

end CoverageRun.Glob
