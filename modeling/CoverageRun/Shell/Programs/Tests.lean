/-
The tests of files, texts and numbers, and how they are put together.
-/
import CoverageRun.Shell.Programs.Printing

namespace CoverageRun.Shell

open Files

/-! ## Single tests -/

/-- The tests of a file or of one text. -/
def unaryTests : List String :=
  ["-b", "-c", "-d", "-e", "-f", "-g", "-h", "-k", "-n", "-p", "-r", "-s", "-t", "-u", "-w", "-x",
    "-z", "-G", "-L", "-O", "-S"]

/-- The tests of two texts, numbers or files. -/
def binaryTests : List String :=
  ["=", "!=", "<", ">", "-eq", "-ne", "-lt", "-le", "-gt", "-ge", "-nt", "-ot", "-ef"]

/-- A test of a file or of one text. -/
def unaryTest (s : Session) (op arg : String) : Except String Bool :=
  let p : Path := ⟨arg⟩
  let isDevice := ["/dev/null", "/dev/zero", "/dev/tty", "/dev/full"].contains arg
  let entry := s.tree.find true p
  match op with
  | "-n" => .ok (arg != "")
  | "-z" => .ok (arg == "")
  | "-e" | "-r" | "-w" | "-O" | "-G" => .ok (entry.isOk || isDevice)
  | "-c" => .ok isDevice
  | "-d" => .ok (s.tree.isDirectory p)
  | "-f" => .ok (entry.isOk && !s.tree.isDirectory p)
  | "-s" =>
    match entry with
    | .ok (_, .file bytes _) => .ok !bytes.isEmpty
    | .ok _ => .ok true
    | .error _ => .ok false
  | "-x" =>
    match entry with
    | .ok (_, .file _ executable) => .ok executable
    | .ok _ => .ok true
    | .error _ => .ok false
  | "-L" | "-h" =>
    match s.tree.find false p with
    | .ok (_, .link _) => .ok true
    | _ => .ok false
  | "-t" => if (wordValue? .decimal arg).isSome then .ok false else .error s!"Illegal number: {arg}"
  | _ => .ok false

/-- The number that a word of a test stands for. -/
def testNumber (text : String) : Except String Int :=
  match wordValue? .decimal text with
  | some n => .ok n.toInt
  | none => .error s!"Illegal number: {text}"

/-- A test of two texts, numbers or files. -/
def binaryTest (s : Session) (a op b : String) : Except String Bool :=
  let onNumbers (f : Int → Int → Bool) : Except String Bool := do
    return f (← testNumber a) (← testNumber b)
  match op with
  | "=" => .ok (a == b)
  | "!=" => .ok (a != b)
  | "<" => .ok (a < b)
  | ">" => .ok (b < a)
  | "-eq" => onNumbers (· == ·)
  | "-ne" => onNumbers (· != ·)
  | "-lt" => onNumbers (· < ·)
  | "-le" => onNumbers (· ≤ ·)
  | "-gt" => onNumbers (fun a b => b < a)
  | "-ge" => onNumbers (fun a b => b ≤ a)
  | "-ef" =>
    match s.tree.find true ⟨a⟩, s.tree.find true ⟨b⟩ with
    | .ok (a, _), .ok (b, _) => .ok (a == b)
    | _, _ => .ok false
  | _ => .ok false

/-! ## Tests put together -/

/-- What the first word of a test is: its end, an operand, or an operator. -/
inductive TestWord where
  | finish
  | operand
  | operator (text : String)
  deriving DecidableEq, Repr

/-- What the first word is. An operator with one operand is an operand itself where none follows it,
or where an operator with two does. -/
def testWord : List String → TestWord
  | [] => .finish
  | w :: rest =>
    if unaryTests.contains w then
      match rest with
      | [] => .operand
      | op :: _ :: _ => if binaryTests.contains op then .operand else .operator w
      | _ => .operator w
    else if w = "(" ∧ rest = [] then .operand
    else if binaryTests.contains w || ["!", "-a", "-o", "(", ")"].contains w then .operator w
    else .operand

/-- The value of a test without links at the head of words, and the words from its last one on;
`whole` gives that of a test in brackets. -/
def primaryTest (s : Session) (whole : List String → Except String (Bool × List String))
    (kind : TestWord) (ws : List String) : Except String (Bool × List String) := do
  match ws with
  | [] => return (false, [])
  | w :: rest =>
    let isUnary := match kind with
      | .operator op => unaryTests.contains op
      | _ => false
    if kind = .finish then return (false, ws)
    else if kind = .operator "(" then
      if testWord rest = .operator ")" then return (false, rest)
      else
        let (value, rest) ← whole rest
        if testWord (rest.drop 1) = .operator ")" then return (value, rest.drop 1)
        else throw "closing paren expected"
    else if isUnary then
      match rest with
      | [] => throw s!"{w}: argument expected"
      | arg :: _ => return (← unaryTest s w arg, rest)
    else
      match rest with
      | [] => return (w != "", ws)
      | op :: others =>
        if binaryTests.contains op then
          match others with
          | [] => throw s!"{op}: argument expected"
          | b :: _ => return (← binaryTest s w op b, others)
        else return (w != "", ws)

/-- The value of a test after signs of negation. -/
def negatedTest (primary : TestWord → List String → Except String (Bool × List String)) :
    Nat → TestWord → List String → Except String (Bool × List String)
  | 0, kind, ws => primary kind ws
  | fuel + 1, kind, ws => do
    if kind = .operator "!" then
      let next := testWord (ws.drop 1)
      let (value, rest) ← negatedTest primary fuel next (if next = .finish then ws else ws.drop 1)
      return (!value, rest)
    else primary kind ws

/-- The value of tests that are linked by an operator. -/
def linkedTests (op : String) (isAnd : Bool)
    (part : TestWord → List String → Except String (Bool × List String)) :
    Nat → Bool → TestWord → List String → Except String (Bool × List String)
  | 0, value, _, ws => return (value, ws)
  | fuel + 1, value, kind, ws => do
    let (here, ws) ← part kind ws
    let value := if isAnd then value && here else value || here
    if testWord (ws.drop 1) = .operator op then
      linkedTests op isAnd part fuel value (testWord (ws.drop 2)) (ws.drop 2)
    else return (value, ws)

/-- The value of a test whose first word is of a kind; `fuel` bounds the depth of brackets. -/
def wholeTest (s : Session) : Nat → TestWord → List String → Except String (Bool × List String)
  | 0, _, _ => throw "closing paren expected"
  | fuel + 1, kind, ws =>
    let primary := primaryTest s fun ws => wholeTest s fuel (testWord ws) ws
    let negated (kind : TestWord) (ws : List String) := negatedTest primary ws.length kind ws
    let both (kind : TestWord) (ws : List String) :=
      linkedTests "-a" true negated (ws.length + 1) true kind ws
    linkedTests "-o" false both (ws.length + 1) false kind ws

/-- The value of all words as a test. Where there are few of them, an operator with two operands in
their middle goes before brackets and negation. -/
def testValue (s : Session) : Nat → List String → Except String Bool
  | 0, _ | _, [] => return false
  | fuel + 1, ws => do
    let evaluate (kind : TestWord) (ws : List String) : Except String Bool := do
      match ← wholeTest s (ws.length + 1) kind ws with
      | (_, w :: _ :: _) =>
        throw (if w = "" then "unexpected operator" else s!"{w}: unexpected operator")
      | (value, _) => return value
    let bracketed : Bool := ws.head? == some "(" && ws.getLast? == some ")"
    if ws.length = 3 ∧ binaryTests.contains (ws[1]?.getD "") then evaluate .operand ws
    else if ws.length = 3 ∨ ws.length = 4 then
      if bracketed then
        let inside := (ws.drop 1).dropLast
        evaluate (testWord inside) inside
      else if ws.head? = some "!" then return !(← testValue s fuel (ws.drop 1))
      else evaluate (testWord ws) ws
    else evaluate (testWord ws) ws

/-- Tells by its status whether a test holds. -/
def test : Program := fun args s =>
  match testValue s (args.length + 1) args with
  | .ok b => s.tell b
  | .error message => s.protest message 2

/-- A test between brackets. -/
def bracket : Program := fun args s =>
  if args.getLast? = some "]" then test args.dropLast s else s.protest "missing ]" 2

end CoverageRun.Shell
