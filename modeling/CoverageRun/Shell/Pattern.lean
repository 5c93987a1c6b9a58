/-
Patterns of the shell: text in which a star stands for any characters, a question mark for one, and
brackets for one of a class. They select arms, cut the values of parameters and find file names.
-/
import CoverageRun.Files.Resolve

namespace CoverageRun.Shell

open Files

/-! ## Patterns -/

/-- A part of a pattern. -/
inductive Mark where
  | char (c : Char)
  | one
  | any
  | oneOf (negated : Bool) (ranges : List (Char × Char))
  deriving DecidableEq, Repr

/-- A pattern: its parts. -/
abbrev Pattern := List Mark

/-- Whether a part matches a character. -/
def Mark.accepts (m : Mark) (c : Char) : Bool :=
  match m with
  | .char d => c == d
  | .one | .any => true
  | .oneOf negated ranges => (ranges.any fun r => r.1 ≤ c && c ≤ r.2) != negated

/-- A character of a pattern, and whether it stands for itself only. -/
abbrev Sign := Char × Bool

/-- The ranges of the characters that a name of a class stands for. -/
def classRanges? (name : String) : Option (List (Char × Char)) :=
  let lower := ('a', 'z')
  let upper := ('A', 'Z')
  let digit := ('0', '9')
  match name with
  | "alpha" => some [lower, upper]
  | "digit" => some [digit]
  | "alnum" => some [lower, upper, digit]
  | "lower" => some [lower]
  | "upper" => some [upper]
  | "space" => some [('\t', '\r'), (' ', ' ')]
  | "blank" => some [('\t', '\t'), (' ', ' ')]
  | "punct" => some [('!', '/'), (':', '@'), ('[', '\x60'), ('\x7b', '~')]
  | "print" => some [(' ', '~')]
  | "graph" => some [('!', '~')]
  | "cntrl" => some [('\x00', '\x1f'), ('\x7f', '\x7f')]
  | "xdigit" => some [digit, ('a', 'f'), ('A', 'F')]
  | _ => none

/-- The ranges of a named class at the head of a text, behind a bracket, and what follows it. -/
def takeNamed? (cs : List Sign) : Option (List (Char × Char) × List Sign) :=
  match cs with
  | (':', _) :: r =>
    let name := r.takeWhile fun c => isLower c.1
    match r.drop name.length with
    | (':', _) :: (']', _) :: r =>
      (classRanges? (String.ofList (name.map (·.1)))).map (·, r)
    | _ => none
  | _ => none
where
  isLower (c : Char) : Bool := 'a' ≤ c && c ≤ 'z'

/-- The ranges of a class up to its bracket; `fuel` is at least the length of the text. -/
def takeClass : Nat → Bool → List Sign → Option (List (Char × Char) × List Sign)
  | 0, _, _ | _, _, [] => none
  | fuel + 1, first, c :: r =>
    let goOn (ranges : List (Char × Char)) (r : List Sign) :=
      (takeClass fuel false r).map fun (others, r) => (ranges ++ others, r)
    if c = (']', false) ∧ first = false then some ([], r)
    else
      match if c = ('[', false) then takeNamed? r else none with
      | some (ranges, r) => goOn ranges r
      | none =>
        let (a, r) := match c, r with
          | ('\\', false), d :: r => (d.1, r)
          | c, r => (c.1, r)
        match r with
        | ('-', false) :: b :: rest =>
          if b = (']', false) then goOn [(a, a)] r
          else
            match b, rest with
            | ('\\', false), d :: rest => goOn [(a, d.1)] rest
            | b, rest => goOn [(a, b.1)] rest
        | r => goOn [(a, a)] r

/-- The pattern that characters write; `fuel` is at least their number. -/
def patternWithin : Nat → List Sign → Pattern
  | 0, _ | _, [] => []
  | fuel + 1, (c, exact) :: r =>
    if exact then .char c :: patternWithin fuel r
    else
      match c with
      | '*' => .any :: patternWithin fuel r
      | '?' => .one :: patternWithin fuel r
      | '\\' =>
        match r with
        | d :: r => .char d.1 :: patternWithin fuel r
        | [] => [.char c]
      | '[' =>
        let negated := r.head? = some ('!', false)
        match takeClass (r.length + 1) true (if negated then r.drop 1 else r) with
        | some (ranges, r) => .oneOf (decide negated) ranges :: patternWithin fuel r
        | none => .char c :: patternWithin fuel r
      | c => .char c :: patternWithin fuel r

/-- A text as characters that stand for its octets. -/
def octetChars (cs : List Char) : List Char :=
  (Text.octets (String.ofList cs)).map fun b => Char.ofNat b.toNat

/-- The text of characters that stand for octets. -/
def ofOctetChars (cs : List Char) : List Char :=
  (Text.lossy (cs.map fun c => UInt8.ofNat c.toNat)).toList

/-- The pattern that characters write; it matches octets. -/
def Pattern.ofSigns (signs : List Sign) : Pattern :=
  let octets := signs.flatMap fun c => (octetChars [c.1]).map (·, c.2)
  patternWithin octets.length octets

/-- Whether a pattern matches all of some octets. -/
def Pattern.covers : Pattern → List Char → Bool
  | [], cs => cs.isEmpty
  | .any :: ms, [] => Pattern.covers ms []
  | .any :: ms, c :: cs => Pattern.covers ms (c :: cs) || Pattern.covers (.any :: ms) cs
  | _ :: _, [] => false
  | m :: ms, c :: cs => m.accepts c && Pattern.covers ms cs

/-- Whether a pattern matches the whole of a text. -/
def Pattern.matches (p : Pattern) (cs : List Char) : Bool := p.covers (octetChars cs)

/-- Whether some part of a pattern stands for more than one character. -/
def Pattern.isOpen (p : Pattern) : Bool :=
  p.any fun m =>
    match m with
    | .char _ => false
    | _ => true

/-! ## Cutting -/

/-- The text without the head that a pattern matches: the shortest such head, or the longest. -/
def Pattern.cutHead (p : Pattern) (longest : Bool) (text : List Char) : List Char :=
  let cs := octetChars text
  let lengths := List.range (cs.length + 1)
  match (if longest then lengths.reverse else lengths).find? fun n => p.covers (cs.take n) with
  | some n => ofOctetChars (cs.drop n)
  | none => text

/-- The text without the tail that a pattern matches: the shortest such tail, or the longest. -/
def Pattern.cutTail (p : Pattern) (longest : Bool) (text : List Char) : List Char :=
  let cs := octetChars text
  let lengths := List.range (cs.length + 1)
  match (if longest then lengths else lengths.reverse).find? fun n => p.covers (cs.drop n) with
  | some n => ofOctetChars (cs.take n)
  | none => text

/-- Texts in a row without the head of the first that a pattern matches; without all of them if the
longest head is the whole first one and more follow. -/
def Pattern.cutHeads (p : Pattern) (longest : Bool) : List String → List String
  | [] => []
  | first :: rest =>
    if longest && !rest.isEmpty && p.matches first.toList then [""]
    else String.ofList (p.cutHead longest first.toList) :: rest

/-- Texts in a row without the tail that a pattern matches, and without what follows it: the last
such tail in a text, or the longest of the first text. -/
def Pattern.cutTails (p : Pattern) (longest : Bool) (texts : List String) : List String :=
  let isCut (text : String) : Bool :=
    let cs := octetChars text.toList
    (List.range (cs.length + 1)).any fun n => p.covers (cs.drop n)
  let place? :=
    if longest then (texts.head?.filter isCut).map fun _ => 0
    else (List.range texts.length).reverse.find? fun n => isCut ((texts[n]?).getD "")
  match place? with
  | none => texts
  | some n =>
    let cut := p.cutTail longest ((texts[n]?).getD "").toList
    texts.take n ++ [String.ofList cut]

/-! ## File names -/

/-- The names in a directory that a pattern matches. A name that begins with a dot is matched only
by a pattern that does. -/
def matchingNames (t : Tree) (dir : Path) (p : Pattern) : List String :=
  match t.find true dir with
  | .ok (loc, .directory) =>
    ([".", ".."] ++ (t.children loc).map (·.1)).filter fun name =>
      (p.head? == some (.char '.') || name.toList.head? != some '.') && p.matches name.toList
  | _ => []

/-- The paths below `done` that patterns, one for each name on the way, lead to. -/
def pathsMatching (t : Tree) (done : String) : List Pattern → List String
  | [] => [done]
  | p :: ps =>
    let dir : Path := ⟨if done = "" then "." else done⟩
    let names :=
      if p.isOpen then matchingNames t dir p
      else
        let name := p.filterMap fun m => if let .char c := m then some c else none
        [String.ofList (ofOctetChars name)]
    let found := names.filter fun name =>
      !p.isOpen || ps.isEmpty || t.isDirectory (dir.join name)
    found.flatMap fun name =>
      pathsMatching t (done ++ name ++ if ps.isEmpty then "" else "/") ps

/-- The parts of a pattern between slashes. -/
def Pattern.split : Pattern → List Pattern
  | [] => [[]]
  | .char '/' :: ms => [] :: Pattern.split ms
  | m :: ms =>
    match Pattern.split ms with
    | p :: ps => (m :: p) :: ps
    | [] => [[m]]

/-- The paths that a pattern leads to, in order. -/
def Pattern.paths (p : Pattern) (t : Tree) : List String :=
  ((pathsMatching t "" p.split).filter fun s => t.isPresent ⟨s⟩).mergeSort

end CoverageRun.Shell
