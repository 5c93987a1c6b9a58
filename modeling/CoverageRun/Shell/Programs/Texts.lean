/-
The programs that read texts and print parts of them, or what they are changed to.
-/
import CoverageRun.Numeral.Whole
import CoverageRun.Shell.Programs.Printing
import CoverageRun.Shell.Regex

namespace CoverageRun.Shell

open Files Text

/-! ## Reading -/

/-- The wording of a fault without its number. -/
def faultText (f : Fault) : String :=
  String.ofList ((Text.cut '(' f.message.toList).map (·.1.dropLast) |>.getD f.message.toList)

/-- What is left to be read from the input, which may be a directory. -/
def inputOf (s : Session) : Except Fault (List UInt8) :=
  match s.channel? .input with
  | some (_, .file loc _ _) =>
    if s.tree.entry? loc = some .directory then .error .isDirectory else .ok s.input
  | _ => .ok s.input

/-- The octets a program reads that is given a path, or its input for a hyphen. -/
def contents (s : Session) (path : String) : Except Fault (List UInt8) :=
  if path = "-" ∨ path = "/dev/stdin" then inputOf s
  else if path = "/dev/null" then .ok []
  else s.tree.readBytes ⟨path⟩

/-- The octets of each of several files that can be read, with their names, or the input if none is
named. Of the others the session has complaints, which `complaint` words. -/
def gatherEach (complaint : String → Fault → String) (status : Nat) (paths : List String)
    (s : Session) : List (String × List UInt8) × Session :=
  let (chunks, s) := (if paths.isEmpty then ["-"] else paths).foldl
    (fun (chunks, s) path =>
      match contents s path with
      | .ok bytes => ((path, bytes) :: chunks, if path = "-" then s.drained else s)
      | .error f => (chunks, (s.complain (complaint path f)).ended status))
    (([] : List (String × List UInt8)), s.ended 0)
  (chunks.reverse, s)

/-- The octets of several files one after another, or the input if none is named. What cannot be
read is complained of. -/
def gather (program : String) (paths : List String) (s : Session) : List UInt8 × Session :=
  let complaint (path : String) (f : Fault) : String := s!"{program}: {path}: {faultText f}"
  let (chunks, s) := gatherEach complaint 1 paths s
  (chunks.flatMap (·.2), s)

/-- Splits arguments into the letters of options and the others, all those behind two hyphens among
them. -/
def options (args : List String) : List Char × List String :=
  let before := args.takeWhile (· != "--")
  let isOption (a : String) : Bool := a.startsWith "-" && a != "-"
  ((before.filter isOption).flatMap (·.toList.drop 1),
    (before.filter fun a => !isOption a) ++ args.drop (before.length + 1))

/-- Fails where a letter of an option is none that a program knows. -/
def withKnown (program known : String) (letters : List Char) (status : Nat) (s : Session)
    (work : Session) : Session :=
  match letters.find? fun c => !known.toList.contains c with
  | some c => s.refuseUse program s!"invalid option -- '{c}'" status
  | none => work

/-- The lines of octets, each with its line feed. -/
def octetLines : List UInt8 → List (List UInt8)
  | [] => []
  | b :: bs =>
    if b = 10 then [b] :: octetLines bs
    else
      match octetLines bs with
      | line :: rest => (b :: line) :: rest
      | [] => [[b]]

/-- A number filled up with blanks to a width. -/
def column (width n : Nat) : String :=
  let digits := toString n
  String.ofList (List.replicate (width - digits.length) ' ') ++ digits

/-- Prints files, their lines numbered or their ends marked where that is asked for. -/
def cat : Program := fun args s =>
  let (letters, paths) := options args
  let (bytes, failed) := gather "cat" paths s
  let marks := letters.any fun c => ['E', 'e', 'A'].contains c
  let marked (line : List UInt8) : List UInt8 :=
    if marks && line.getLast? == some 10 then line.dropLast ++ [36, 10] else line
  let lines := (octetLines bytes).map marked
  let numbered (lines : List (List UInt8)) : List UInt8 :=
    (lines.zipIdx 1).flatMap fun l => octets (column 6 l.2 ++ "\t") ++ l.1
  withKnown "cat" "AbEenTtuv" letters 1 s
    (failed.put .output
      (if letters.contains 'n' then numbered lines
        else if marks then lines.flatten
        else bytes))

/-- The option of a program that takes a number, as a text, and the other arguments. -/
def countOption? (letters : List Char) : List String → Option (Char × String) × List String
  | [] => (none, [])
  | a :: rest =>
    match a.toList with
    | '-' :: c :: text =>
      if letters.contains c then
        if text = [] then (some (c, rest.headD ""), rest.drop 1)
        else (some (c, String.ofList text), rest)
      else if c.isDigit then (some ('n', String.ofList (c :: text)), rest)
      else
        let (found, rest) := countOption? letters rest
        (found, a :: rest)
    | _ =>
      let (found, rest) := countOption? letters rest
      (found, a :: rest)

/-- Prints a part of each of several files, under its name if there is more than one. -/
def printParts (program : String) (part : List UInt8 → List UInt8) (paths : List String)
    (s : Session) : Session :=
  let complaint (path : String) (f : Fault) : String :=
    match f with
    | .isDirectory => s!"{program}: error reading '{path}': {faultText f}"
    | f => s!"{program}: cannot open '{path}' for reading: {faultText f}"
  let (letters, paths) := options paths
  let (files, s) := gatherEach complaint 1 paths s
  let isNamed := (paths.length > 1 || letters.contains 'v') && !letters.contains 'q'
  (files.zipIdx).foldl (fun s f =>
    let name := if f.1.1 = "-" then "standard input" else f.1.1
    let lead := if f.2 = 0 then "" else "\n"
    let s := if isNamed then s.say s!"{lead}==> {name} <==\n" else s
    s.put .output (part f.1.2)) s

/-- Fails where a count of lines or octets is no number. -/
def refuseCount (program : String) (kind : Char) (text : String) (s : Session) : Session :=
  let items := if kind = 'c' then "bytes" else "lines"
  s.refuse program s!"invalid number of {items}: '{text}'" 1

/-- Prints the first lines of files, or their first octets; all but the last ones for a number below
zero. -/
def head : Program := fun args s =>
  let (found, paths) := countOption? ['n', 'c'] args
  let (kind, text) := found.getD ('n', "10")
  match text.toInt? with
  | none => refuseCount "head" kind text s
  | some n =>
    let take {α : Type} (items : List α) : List α :=
      if n < 0 then items.take (items.length - n.natAbs) else items.take n.toNat
    if kind = 'c' ∧ paths = ["/dev/zero"] then
      (s.put .output (List.replicate n.toNat 0)).ended 0
    else
      printParts "head" (fun bytes =>
        if kind = 'c' then take bytes else (take (octetLines bytes)).flatten) paths s

/-- Prints the last lines of files, or their last octets; all from a place on behind a plus sign. -/
def tail : Program := fun args s =>
  let (found, paths) := countOption? ['n', 'c'] args
  let (kind, text) := found.getD ('n', "10")
  let digits := (afterText? "+" text).getD ((afterText? "-" text).getD text)
  match digits.toNat? with
  | none => refuseCount "tail" kind text s
  | some n =>
    let take {α : Type} (items : List α) : List α :=
      if text.startsWith "+" then items.drop (n - 1) else items.drop (items.length - n)
    printParts "tail" (fun bytes =>
      if kind = 'c' then take bytes else (take (octetLines bytes)).flatten) paths s

/-- The places that a list of ranges names, counted from one. -/
def isListed (ranges : List (List Char)) (place : Nat) : Bool :=
  let number (cs : List Char) (default : Nat) : Nat := ((String.ofList cs).toNat?).getD default
  ranges.any fun range =>
    match Text.cut '-' range with
    | some (first, last) => number first 1 ≤ place && place ≤ number last place
    | none => number range 0 == place

/-- The value of an option that a letter stands for, and the other arguments. -/
def letterOption (letter : Char) : List String → Option String × List String
  | [] => (none, [])
  | a :: rest =>
    match a.toList with
    | ['-', c] =>
      if c = letter then (rest.head?, rest.drop 1)
      else
        let (value, rest) := letterOption letter rest
        (value, a :: rest)
    | '-' :: c :: value =>
      if c = letter then (some (String.ofList value), rest)
      else
        let (value, rest) := letterOption letter rest
        (value, a :: rest)
    | _ =>
      let (value, rest) := letterOption letter rest
      (value, a :: rest)

/-- Prints fields or octets of every line. A line without a separator is one field that is always
printed. -/
def cut : Program := fun args s =>
  let (separator, args) := letterOption 'd' args
  let (fields, args) := letterOption 'f' args
  let (places, paths) := letterOption 'c' args
  let ranges := split ',' ((fields.orElse fun _ => places).getD "").toList
  let chosen {α : Type} (items : List α) : List α :=
    (items.zipIdx.filter fun i => isListed ranges (i.2 + 1)).map (·.1)
  let mark := (separator.getD "\t").toList.headD '\t'
  let shown (line : List Char) : List Char :=
    if fields.isNone then chosen line
    else if line.contains mark then join [mark] (chosen (split mark line))
    else line
  let (bytes, s) := gather "cut" paths s
  s.put .output ((octetLines bytes).flatMap fun line =>
    let line := if line.getLast? = some 10 then line.dropLast else line
    let kept := shown (line.map fun b => Char.ofNat b.toNat)
    kept.map (fun c => UInt8.ofNat c.toNat) ++ [10])

/-- Prints its input and writes it to files. -/
def tee : Program := fun args s =>
  let (letters, paths) := options args
  let appends := letters.contains 'a'
  let bytes := s.input
  paths.foldl (fun s path =>
    let old := if appends then (s.tree.readBytes ⟨path⟩).toOption.getD [] else []
    match s.tree.write ⟨path⟩ (old ++ bytes) with
    | .ok tree => { s with tree }
    | .error f => s.refuse "tee" s!"{path}: {faultText f}" 1)
    (s.drained.put .output bytes |>.ended 0)

/-- The numbers of lines, words and octets. -/
def sizesOf (bytes : List UInt8) : List Nat :=
  let words := (bytes.foldl (fun ((n, inside) : Nat × Bool) b =>
    if b = 32 ∨ (9 ≤ b ∧ b ≤ 13) then (n, false) else (if inside then n else n + 1, true))
    (0, false)).1
  [bytes.count 10, words, bytes.length]

/-- Counts the lines, words and octets of its input or of files, which it also counts together. -/
def wc : Program := fun args s =>
  let (letters, paths) := options args
  let asked (c : Char) : Bool := letters.isEmpty || letters.contains c
  let kept := [asked 'l', asked 'w', asked 'c' || letters.contains 'm']
  let row (width : Nat) (sizes : List Nat) (name : List String) : String :=
    let shown := ((sizes.zip kept).filter (·.2)).map fun n => column width n.1
    joinText " " (shown ++ name) ++ "\n"
  let isSingle := (kept.filter id).length = 1
  let isFile (path : String) : Bool := s.tree.isPresent ⟨path⟩ && !s.tree.isDirectory ⟨path⟩
  let total := paths.foldl (fun total path =>
    match contents s path with
    | .ok bytes => total.zipWith (· + ·) (sizesOf bytes)
    | .error _ => total) [0, 0, 0]
  let width :=
    if paths.all isFile ∧ paths ≠ [] then
      if isSingle && paths.length == 1 then 0 else (toString (total.getLastD 0)).length
    else if isSingle && paths.length ≤ 1 then 0
    else if s.channel? .input matches some (_, .file _ _ _) then
      if paths.isEmpty then (toString s.input.length).length else 7
    else 7
  withKnown "wc" "clwmL" letters 1 s
    (if paths.isEmpty then (s.drained.say (row width (sizesOf s.input) [])).ended 0
    else
      let t := paths.foldl (fun s path =>
        match contents s path with
        | .ok bytes => s.say (row width (sizesOf bytes) [path])
        | .error .isDirectory =>
          (s.refuse "wc" s!"{path}: Is a directory" 1).say (row width [0, 0, 0] [path])
        | .error f => s.refuse "wc" s!"{path}: {faultText f}" 1) (s.ended 0)
      if paths.length = 1 then t else t.say (row width total ["total"]))

/-! ## Lines -/

/-- The lines of a text, and its line feeds. -/
def linesOf (bytes : List UInt8) : List String := textLines (lossy bytes)

/-- Prints lines. -/
def sayLines (s : Session) (lines : List String) : Session :=
  s.say (String.join (lines.map (· ++ "\n")))

/-- Prints the lines of files in order. -/
def sort : Program := fun args s =>
  let (letters, paths) := options args
  let complaint (path : String) (f : Fault) : String :=
    match f with
    | .isDirectory => s!"sort: read failed: {path}: {faultText f}"
    | f => s!"sort: cannot read: {path}: {faultText f}"
  let (files, failed) := gatherEach complaint 2 paths s
  let lines := linesOf (files.flatMap (·.2))
  let number (line : String) : Int := ((takeNumber? .decimal line.toList).map (·.1)).getD 0
  let ordered :=
    if letters.contains 'n' then
      lines.mergeSort fun a b => number a < number b || (number a == number b && a ≤ b)
    else lines.mergeSort fun a b => a ≤ b
  let ordered := if letters.contains 'r' then ordered.reverse else ordered
  withKnown "sort" "bdfghiMnRrVcCmsuz" letters 2 s
    (if failed.status ≠ 0 then failed
    else sayLines failed (if letters.contains 'u' then ordered.eraseReps else ordered))

/-- The runs of equal texts, with their lengths. -/
def runsOf : List String → List (String × Nat)
  | [] => []
  | a :: rest =>
    match runsOf rest with
    | (b, n) :: runs => if a = b then (a, n + 1) :: runs else (a, 1) :: (b, n) :: runs
    | [] => [(a, 1)]

/-- Prints the lines of files, one for each run of equal ones, or for those of some length. -/
def uniq : Program := fun args s =>
  let (letters, paths) := options args
  let complaint (path : String) (f : Fault) : String :=
    match f with
    | .isDirectory => s!"uniq: error reading '{path}': {faultText f}"
    | f => s!"uniq: {path}: {faultText f}"
  let (files, failed) := gatherEach complaint 1 (paths.take 1) s
  let kept := (runsOf (linesOf (files.flatMap (·.2)))).filter fun r =>
    !(letters.contains 'd' && r.2 == 1) && !(letters.contains 'u' && r.2 != 1)
  withKnown "uniq" "cdiu" letters 1 s
    (sayLines failed (kept.map fun r =>
      if letters.contains 'c' then s!"{column 7 r.2} {r.1}" else r.1))

/-- Whether a match is a whole word, or the whole line, where that is asked for. -/
def isBounded (letters : List Char) (line : List Char) (place length : Nat) : Bool :=
  let isWordChar (c : Option Char) : Bool := (c.map isNameChar).getD false
  if letters.contains 'x' then place == 0 && length == line.length
  else if letters.contains 'w' then
    !isWordChar ((line.take place).getLast?) && !isWordChar ((line.drop (place + length)).head?)
  else true

/-- Prints the lines of files that hold a match. -/
def grep : Program := fun args s =>
  let (given, args) := letterOption 'e' args
  let (letters, rest) := options args
  let rest := (given.map fun p => p :: rest).getD rest
  let usage := "Usage: grep [OPTION]... PATTERNS [FILE]...\nTry 'grep --help' for more information."
  match rest with
  | [] => (s.complain usage).ended 2
  | pattern :: paths =>
    let folded (cs : List Char) : List Char :=
      if letters.contains 'i' then cs.map Char.toLower else cs
    let complaint (path : String) (f : Fault) : String := s!"grep: {path}: {faultText f}"
    let (files, failed) := gatherEach complaint 2 paths s
    let failed := if letters.contains 's' then (s.ended failed.status) else failed
    let regexes := (textLines pattern).map fun p =>
      Regex.ofChars (letters.contains 'E') (folded p.toList)
    let isMatch (line : List Char) : Bool :=
      if letters.contains 'F' then
        (textLines pattern).any fun p =>
          (List.range (line.length + 1)).any fun n =>
            startsWith (folded p.toList) ((folded line).drop n) &&
              isBounded letters line n p.length
      else
        regexes.any fun r =>
          (r.all (folded line)).any fun m => isBounded letters line m.first (m.last - m.first)
    let holds (line : String) : Bool :=
      (isMatch line.toList || (pattern == "" && !letters.contains 'x')) != letters.contains 'v'
    let isNamed := (paths.length > 1 || letters.contains 'H') && !letters.contains 'h'
    let shown (name : String) : String := if name = "-" then "(standard input)" else name
    let lead (name : String) : String := if isNamed then shown name ++ ":" else ""
    let found := files.map fun f => (f.1, (linesOf f.2).zipIdx 1 |>.filter fun l => holds l.1)
    let isAny := found.any fun f => !f.2.isEmpty
    let t :=
      if letters.contains 'q' then failed
      else
        found.foldl (fun s f =>
          if letters.contains 'l' then if f.2.isEmpty then s else s.say (shown f.1 ++ "\n")
          else if letters.contains 'L' then if f.2.isEmpty then s.say (shown f.1 ++ "\n") else s
          else if letters.contains 'c' then s.say s!"{lead f.1}{f.2.length}\n"
          else
            sayLines s (f.2.flatMap fun l =>
              let head := lead f.1 ++ if letters.contains 'n' then s!"{l.2}:" else ""
              if letters.contains 'o' then
                (regexes.flatMap fun r => r.all (folded l.1.toList)).filterMap fun m =>
                  let text := (l.1.toList.drop m.first).take (m.last - m.first)
                  if text = [] then none else some (head ++ String.ofList text)
              else [head ++ l.1])) failed
    withKnown "grep" "EFGHLchilnoqsvwx" letters 2 s
      (if failed.status = 0 ∨ (isAny ∧ letters.contains 'q') then t.tell isAny else t.ended 2)

/-- The characters that a set names, ranges, classes and escapes among them; `fuel` is at least the
number of characters. -/
def setWithin : Nat → List Char → List Char
  | 0, _ | _, [] => []
  | fuel + 1, cs =>
    let ranged (a b : Char) : List Char :=
      (List.range (b.toNat + 1 - a.toNat)).map fun n => Char.ofNat (a.toNat + n)
    let one (cs : List Char) : Option (Char × List Char) :=
      match cs with
      | '\\' :: r =>
        let (b, r) := Format.takeEscape r
        match b, r with
        | 92, c :: r => some (c, r)
        | b, r => some (Char.ofNat b.toNat, r)
      | c :: r => some (c, r)
      | [] => none
    match cs with
    | '[' :: r =>
      match takeNamed? (r.map (·, false)) with
      | some (ranges, rest) =>
        (ranges.mergeSort fun a b => a.1 ≤ b.1).flatMap (fun r => ranged r.1 r.2) ++
          setWithin fuel ((rest.map (·.1)).drop 1)
      | none => '[' :: setWithin fuel r
    | cs =>
      match one cs with
      | some (a, '-' :: r) =>
        match one r with
        | some (b, rest) => ranged a b ++ setWithin fuel rest
        | none => a :: ['-']
      | some (a, r) => a :: setWithin fuel r
      | none => []

/-- The characters that a set names. -/
def setOf (text : String) : List Char := setWithin text.length text.toList

/-- A text with every run of a character of a set cut to one. -/
def squeeze (set : List Char) : List Char → List Char
  | a :: b :: r =>
    if a = b ∧ set.contains a then squeeze set (b :: r) else a :: squeeze set (b :: r)
  | cs => cs

/-- Prints its input with characters of one set replaced by those of another, left out, or cut to
one of each run. -/
def tr : Program := fun args s =>
  let (letters, sets) := options args
  let text := (lossy s.input).toList
  let isIn (set : List Char) (c : Char) : Bool :=
    set.contains c != (letters.contains 'c' || letters.contains 'C')
  let old := setOf (sets.headD "")
  let new := setOf ((sets.drop 1).headD "")
  let replaced (c : Char) : Char :=
    if letters.contains 'c' || letters.contains 'C' then
      if old.contains c then c else new.getLastD c
    else if old.contains c then (new[old.idxOf c]?).getD (new.getLastD c)
    else c
  let changed : List Char :=
    if letters.contains 'd' then text.filter fun c => !isIn old c
    else if sets.length < 2 then text
    else text.map replaced
  let squeezed :=
    if !letters.contains 's' then changed
    else if sets.length < 2 then
      squeeze (if letters.contains 'c' then (changed.filter (isIn old)) else old) changed
    else squeeze new changed
  match sets with
  | [] => s.refuseUse "tr" "missing operand" 1
  | [a] =>
    if letters.contains 'd' || letters.contains 's' then
      (s.drained.say (String.ofList squeezed)).ended 0
    else
      s.refuseUse "tr"
        s!"missing operand after '{a}'\nTwo strings must be given when translating." 1
  | _ => (s.drained.say (String.ofList squeezed)).ended 0

end CoverageRun.Shell
