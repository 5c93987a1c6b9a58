/-
The editor of streams: commands with addresses that are applied to each line of files.
-/
import CoverageRun.Shell.Programs.Texts

namespace CoverageRun.Shell.Editing

open Text

/-! ## Commands -/

/-- A place that an address names. -/
inductive Address where
  | line (n : Nat)
  | last
  | found (r : Regex)
  deriving Repr

/-- What a replacement is made of: text, or what a group has matched. -/
inductive Fill where
  | text (c : Char)
  | group (n : Nat)
  deriving DecidableEq, Repr

/-- What is done to a line. -/
inductive Action where
  | substitute (pattern : Regex) (fill : List Fill) (folded all print : Bool) (which : Nat)
  | print
  | delete
  | quit (isSilent : Bool) (status : Nat)
  | number
  | exchange (old new : List Char)
  | append (text : String)
  | insert (text : String)
  | change (text : String)
  | next
  | join
  | hold (appending : Bool)
  | get (appending : Bool)
  | swap
  | block (size : Nat)
  | nothing
  deriving Repr

/-- A command with its addresses. -/
structure Command where
  first : Option Address
  last : Option Address
  isNegated : Bool
  action : Action
  deriving Repr

/-! ## Reading -/

/-- Why commands cannot be read, with the text left there. -/
structure Flaw where
  message : String
  rest : List Char

/-- Cuts a text at the first separator that no backslash stands before. Backslashes stay, but for
those before the separator. -/
def cutPart (sep : Char) : List Char → Option (List Char × List Char)
  | [] => none
  | '\\' :: c :: r =>
    (cutPart sep r).map fun (a, b) => (if c = sep then c :: a else '\\' :: c :: a, b)
  | c :: r => if c = sep then some ([], r) else (cutPart sep r).map fun (a, b) => (c :: a, b)

/-- What a replacement is made of. -/
def fillOf : List Char → List Fill
  | [] => []
  | '\\' :: 'n' :: r => .text '\n' :: fillOf r
  | '\\' :: 't' :: r => .text '\t' :: fillOf r
  | '\\' :: c :: r =>
    (if c.isDigit then .group (c.toNat - '0'.toNat) else .text c) :: fillOf r
  | '&' :: r => .group 0 :: fillOf r
  | c :: r => .text c :: fillOf r

/-- Characters without the backslashes before them. -/
def plainSet : List Char → List Char
  | '\\' :: 'n' :: r => '\n' :: plainSet r
  | '\\' :: c :: r => c :: plainSet r
  | c :: r => c :: plainSet r
  | [] => []

/-- Reads an address, if there is one. -/
def readAddress (extended : Bool) (cs : List Char) : Except Flaw (Option Address × List Char) :=
  match cs with
  | '$' :: r => .ok (some .last, r)
  | '/' :: r =>
    match cutPart '/' r with
    | some (text, r) => .ok (some (.found (Regex.ofChars extended text)), r)
    | none => .error ⟨"unterminated address regex", []⟩
  | '\\' :: sep :: r =>
    match cutPart sep r with
    | some (text, r) => .ok (some (.found (Regex.ofChars extended text)), r)
    | none => .error ⟨"unterminated address regex", []⟩
  | cs =>
    let digits := cs.takeWhile isDigit
    if digits = [] then .ok (none, cs)
    else .ok (some (.line (Numeral.value digits)), cs.drop digits.length)

/-- Reads what follows the name of a substitution. -/
def readSubstitution (extended : Bool) (cs : List Char) : Except Flaw (Action × List Char) :=
  let unfinished : Except Flaw (Action × List Char) :=
    .error ⟨"unterminated \x60s' command", []⟩
  match cs with
  | [] => unfinished
  | sep :: r =>
    match cutPart sep r with
    | none => unfinished
    | some (pattern, r) =>
      match cutPart sep r with
      | none => unfinished
      | some (fill, r) =>
        let flags := r.takeWhile fun c => ['g', 'p', 'I', 'i'].contains c || isDigit c
        let folded := flags.contains 'I' || flags.contains 'i'
        let text := if folded then pattern.map Char.toLower else pattern
        let which := Numeral.value (flags.filter isDigit)
        .ok (.substitute (Regex.ofChars extended text) (fillOf fill) folded (flags.contains 'g')
          (flags.contains 'p') which, r.drop flags.length)

/-- Reads the text of a command that adds lines. -/
def readText (cs : List Char) : String × List Char :=
  let cs := cs.dropWhile isSpace
  let cs := match cs with
    | '\\' :: '\n' :: r => r
    | '\\' :: r => r
    | cs => cs
  let line := cs.takeWhile (· != '\n')
  (String.ofList line, cs.drop line.length)

/-- Reads what is done to a line. -/
def readAction (extended : Bool) (cs : List Char) : Except Flaw (Action × List Char) :=
  match cs with
  | [] => .error ⟨"missing command", []⟩
  | c :: r =>
    match c with
    | 's' => readSubstitution extended r
    | 'y' =>
      match r with
      | sep :: r =>
        match cutPart sep r with
        | some (old, r) =>
          match cutPart sep r with
          | some (new, r) => .ok (.exchange (plainSet old) (plainSet new), r)
          | none => .error ⟨"unterminated \x60y' command", []⟩
        | none => .error ⟨"unterminated \x60y' command", []⟩
      | [] => .error ⟨"unterminated \x60y' command", []⟩
    | 'p' => .ok (.print, r)
    | 'd' => .ok (.delete, r)
    | '=' => .ok (.number, r)
    | 'n' => .ok (.next, r)
    | 'N' => .ok (.join, r)
    | 'h' => .ok (.hold false, r)
    | 'H' => .ok (.hold true, r)
    | 'g' => .ok (.get false, r)
    | 'G' => .ok (.get true, r)
    | 'x' => .ok (.swap, r)
    | 'q' | 'Q' =>
      let r := r.dropWhile isSpace
      let digits := r.takeWhile isDigit
      .ok (.quit (c == 'Q') (Numeral.value digits), r.drop digits.length)
    | 'a' | 'i' | 'c' =>
      if r = [] then .error ⟨"expected \\ after \x60a', \x60c' or \x60i'", []⟩
      else
        let (text, r) := readText r
        .ok (if c = 'a' then .append text else if c = 'i' then .insert text else .change text, r)
    | '#' => .ok (.nothing, r.dropWhile (· != '\n'))
    | c => .error ⟨s!"unknown command: \x60{c}'", r⟩

/-- Reads commands up to the end of a block or of the text. -/
def readCommands (extended : Bool) : Nat → Nat → List Char → Except Flaw (List Command × List Char)
  | 0, _, cs => .ok ([], cs)
  | fuel + 1, depth, cs => do
    match cs.dropWhile fun c => isSpace c || c == '\n' || c == ';' with
    | [] =>
      if depth = 0 then return ([], []) else throw ⟨"unmatched \x60\x7b'", []⟩
    | '\x7d' :: r => if depth = 0 then throw ⟨"unexpected \x60\x7d'", r⟩ else return ([], r)
    | cs =>
      let (first, r) ← readAddress extended cs
      let (last, r) ← (match first, r.dropWhile isSpace with
        | some _, ',' :: r => readAddress extended (r.dropWhile isSpace)
        | _, r => .ok (none, r))
      let r := r.dropWhile isSpace
      let isNegated := r.head? == some '!'
      let r := if isNegated then (r.drop 1).dropWhile isSpace else r
      match r with
      | '\x7b' :: r =>
        let (inside, r) ← readCommands extended fuel (depth + 1) r
        let (rest, r) ← readCommands extended fuel depth r
        return (⟨first, last, isNegated, .block inside.length⟩ :: inside ++ rest, r)
      | r =>
        let (action, r) ← readAction extended r
        match r.dropWhile isSpace with
        | [] | '\n' :: _ | ';' :: _ | '\x7d' :: _ | '#' :: _ =>
          let (rest, r) ← readCommands extended fuel depth (r.dropWhile isSpace)
          return (⟨first, last, isNegated, action⟩ :: rest, r)
        | _ :: r =>
          let message := match action with
            | .substitute .. => "unknown option to \x60s'"
            | _ => "extra characters after command"
          throw ⟨message, r⟩

/-! ## Editing -/

/-- The editor at work: the lines left, the number of the one it is at, what is held, which ranges
have begun, the lines printed, the last ones first, and what is to be printed behind this one. -/
structure Desk where
  rest : List String
  number : Nat
  space : String
  held : String
  ranges : List Nat
  printed : List String
  after : List String

/-- How editing goes on. -/
inductive Course where
  | on
  /-- The line is done with, and printed if nothing hinders it. -/
  | nextLine (prints : Bool)
  | ended (prints : Bool) (status : Nat)

/-- Whether an address names the line. -/
def Desk.isAt (d : Desk) : Address → Bool
  | .line n => n == d.number
  | .last => d.rest.isEmpty
  | .found r => (r.find? d.space.toList.toArray 0).isSome

/-- Whether a command, known by its place, applies to the line. -/
def Desk.selects (d : Desk) (place : Nat) (c : Command) : Bool × Desk :=
  let (isChosen, d) : Bool × Desk :=
    match c.first, c.last with
    | none, _ => (true, d)
    | some a, none => (d.isAt a, d)
    | some a, some b =>
      let isOver : Bool := match b with
        | .line n => n ≤ d.number
        | b => d.isAt b
      if d.ranges.contains place then
        (true, if isOver then { d with ranges := d.ranges.erase place } else d)
      else if d.isAt a then
        let ends := match b with
          | .line n => decide (n ≤ d.number)
          | .last => d.rest.isEmpty
          | _ => false
        (true, if ends then d else { d with ranges := place :: d.ranges })
      else (false, d)
  (isChosen != c.isNegated, d)

/-- The line with matches replaced. -/
def substituted (found : List Regex.Found) (fill : List Fill) (line : Array Char) : List Char :=
  let textOf (f : Regex.Found) (n : Nat) : List Char :=
    match if n = 0 then some (f.first, f.last) else f.groups.lookup n with
    | some (a, b) => (line.extract a b).toList
    | none => []
  let filled (f : Regex.Found) : List Char := fill.flatMap fun
    | .text c => [c]
    | .group n => textOf f n
  let (done, place) := found.foldl (fun ((done, place) : List (List Char) × Nat) f =>
    (filled f :: (line.extract place f.first).toList :: done, f.last)) ([], 0)
  done.reverse.flatten ++ (line.extract place line.size).toList

/-- Does one thing to the line. -/
def Desk.act (d : Desk) (isSilent : Bool) (c : Command) : Course × Desk :=
  match c.action with
  | .substitute pattern fill folded all print which =>
    let cs := d.space.toList
    let places := pattern.all (if folded then cs.map Char.toLower else cs)
    let first := if which = 0 then 0 else which - 1
    let places := if all then places.drop first else (places.drop first).take 1
    if places.isEmpty then (.on, d)
    else
      let space := String.ofList (substituted places fill cs.toArray)
      (.on, { d with space, printed := if print then space :: d.printed else d.printed })
  | .print => (.on, { d with printed := d.space :: d.printed })
  | .delete => (.nextLine false, d)
  | .quit isSilent status => (.ended (!isSilent) status, d)
  | .number => (.on, { d with printed := toString d.number :: d.printed })
  | .exchange old new =>
    let space := d.space.toList.map fun c =>
      if old.contains c then (new[old.idxOf c]?).getD c else c
    (.on, { d with space := String.ofList space })
  | .append text => (.on, { d with after := d.after ++ [text] })
  | .insert text => (.on, { d with printed := text :: d.printed })
  | .change text => (.nextLine false, { d with printed := text :: d.printed })
  | .next =>
    match d.rest with
    | [] => (.ended true 0, d)
    | l :: rest =>
      let printed := if isSilent then d.printed else d.space :: d.printed
      let printed := d.after.reverse ++ printed
      (.on, { d with rest, space := l, number := d.number + 1, printed, after := [] })
  | .join =>
    match d.rest with
    | [] => (.ended true 0, d)
    | l :: rest => (.on, { d with rest, space := d.space ++ "\n" ++ l, number := d.number + 1 })
  | .hold appending =>
    (.on, { d with held := if appending then d.held ++ "\n" ++ d.space else d.space })
  | .get appending =>
    (.on, { d with space := if appending then d.space ++ "\n" ++ d.held else d.held })
  | .swap => (.on, { d with space := d.held, held := d.space })
  | .block _ | .nothing => (.on, d)

/-- Applies commands to the line, with the place of the first one; `fuel` is more than their number.
-/
def Desk.apply (isSilent : Bool) : Nat → Nat → List Command → Desk → Course × Desk
  | 0, _, _, d | _, _, [], d => (.on, d)
  | fuel + 1, place, c :: cs, d =>
    let (isChosen, d) := d.selects place c
    if isChosen then
      match d.act isSilent c with
      | (.on, d) => apply isSilent fuel (place + 1) cs d
      | stop => stop
    else
      match c.action with
      | .block size => apply isSilent fuel (place + 1 + size) (cs.drop size) d
      | _ => apply isSilent fuel (place + 1) cs d

/-- Edits all lines: what is printed, the last line first, and the status; `fuel` is more than the
number of lines. -/
def edit (isSilent : Bool) (cs : List Command) : Nat → Desk → List String × Nat
  | 0, d => (d.printed, 0)
  | fuel + 1, d =>
    match d.rest with
    | [] => (d.printed, 0)
    | line :: rest =>
      let d := { d with rest, space := line, number := d.number + 1 }
      let (course, d) := d.apply isSilent (cs.length + 1) 0 cs
      let finished (prints : Bool) : Desk :=
        let printed := if prints && !isSilent then d.space :: d.printed else d.printed
        { d with printed := d.after.reverse ++ printed, after := [] }
      match course with
      | .on => edit isSilent cs fuel (finished true)
      | .nextLine prints => edit isSilent cs fuel (finished prints)
      | .ended prints status => ((finished prints).printed, status)

/-! ## The program -/

/-- The commands that arguments give, and the paths. -/
def scriptOf (args : List String) : Option String × List String :=
  let rec scripts : List String → List String × List String
    | "-e" :: text :: rest =>
      let (found, others) := scripts rest
      (text :: found, others)
    | a :: rest =>
      let (found, others) := scripts rest
      match afterText? "--expression=" a with
      | some text => (text :: found, others)
      | none => (found, a :: others)
    | [] => ([], [])
  let (found, others) := scripts args
  let isOption (a : String) : Bool := a.startsWith "-" && a != "-"
  let paths := others.filter fun a => !isOption a
  if found.isEmpty then (paths.head?, paths.drop 1) else (some (joinText "\n" found), paths)

end CoverageRun.Shell.Editing

namespace CoverageRun.Shell

open Text

/-- Prints the lines of files with commands applied to each. -/
def sed : Program := fun args s =>
  let (letters, _) := options (args.filter (· != "-e"))
  let (script, paths) := Editing.scriptOf args
  let extended := letters.contains 'E' || letters.contains 'r'
  let isSilent := letters.contains 'n'
  let usage := "Usage: sed [OPTION]... \x7bscript-only-if-no-other-script\x7d [input-file]..."
  match script with
  | none => (s.complain usage).ended 1
  | some text =>
    let cs := text.toList
    match Editing.readCommands extended (cs.length + 1) 0 cs with
    | .error flaw =>
      let place := cs.length - flaw.rest.length
      s.refuse "sed" s!"-e expression #1, char {place}: {flaw.message}" 1
    | .ok (commands, _) =>
      let edited (bytes : List UInt8) : String × Nat :=
        let lines := linesOf bytes
        let (printed, status) :=
          Editing.edit isSilent commands (lines.length + 1) ⟨lines, 0, "", "", [], [], []⟩
        let isOpen := bytes.getLast? != some 10 && bytes != []
        let shown := joinText "\n" printed.reverse
        (if printed.isEmpty then "" else if isOpen then shown else shown ++ "\n", status)
      if letters.contains 'i' then
        paths.foldl (fun s path =>
          match s.tree.readBytes ⟨path⟩ with
          | .ok bytes =>
            match s.tree.write ⟨path⟩ (Text.octets (edited bytes).1) with
            | .ok tree => { s with tree }
            | .error _ => s
          | .error f => s.refuse "sed" s!"can't read {path}: {faultText f}" 2) (s.ended 0)
      else
        let complaint (path : String) (f : Files.Fault) : String :=
          match f with
          | .isDirectory => s!"sed: couldn't edit {path}: not a regular file"
          | f => s!"sed: can't read {path}: {faultText f}"
        let (files, s) := gatherEach complaint 2 paths s
        let (text, status) := edited (files.flatMap (·.2))
        let s := s.say text
        if status = 0 then s else s.ended status

end CoverageRun.Shell
