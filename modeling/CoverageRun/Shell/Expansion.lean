/-
The expansion of words: parameters, sums and the output of commands are put in their places, and
what comes of that is split into fields.
-/
import CoverageRun.Shell.Running

namespace CoverageRun.Shell

open Files Text

/-! ## Parameters -/

/-- The value of a parameter: a special one, an argument or a variable. -/
def parameter? (s : Session) (name : String) : Option String :=
  match name with
  | "#" => some (toString s.arguments.length)
  | "?" => some (toString s.status)
  | "$" => some (toString s.id)
  | "0" => some s.title
  | "!" => s.lastJob.map toString
  | "-" => some (String.ofList s.options)
  | name =>
    match name.toNat? with
    | some n => s.arguments[n - 1]?
    | none => s.value? name

/-- What stands between arguments that are put together. -/
def argumentGap (s : Session) : String :=
  match s.value? "IFS" with
  | none => " "
  | some breaks => String.ofList (breaks.toList.take 1)

/-- What a word is for: whether its text is split into fields. -/
inductive Use where
  | fields
  | text
  deriving DecidableEq, Repr

/-- The parts that all arguments give, and a text that stands for their value. -/
def allArguments (s : Session) (use : Use) (name : String) (quoted : Bool) : List Atom × String :=
  let joined := joinText (argumentGap s) s.arguments
  if use = .fields ∧ (name = "@" ∨ quoted = false) then (atomsOfAll quoted s.arguments, joined)
  else (atomsOf quoted joined, joined)

/-! ## Homes -/

/-- The home of a user, or that of the session for no name. -/
def homeOf? (s : Session) (user : String) : Option String :=
  if user = "" then s.value? "HOME" else if user = "root" then some "/root" else none

/-- A text with the mark of a home at its head put in its place; behind colons too where
`everywhere` says so. Nothing follows the text in its word where `isLast` says so. -/
def withHomes (s : Session) (everywhere isLast : Bool) (text : List Char) : Word :=
  let parts := if everywhere then split ':' text else [text]
  let shown (part : List Char) (isLast : Bool) : Word :=
    match part with
    | '~' :: r =>
      let user := r.takeWhile (· ≠ '/')
      if user = r ∧ isLast = false then [.literal part false]
      else
        match homeOf? s (String.ofList user) with
        | some home => [.literal home.toList true, .literal (r.drop user.length) false]
        | none => [.literal part false]
    | part => [.literal part false]
  let rec join (parts : List (List Char)) : Word :=
    match parts with
    | [] => []
    | [p] => shown p isLast
    | p :: ps => shown p true ++ .literal [':'] false :: join ps
  join parts

/-- The rest of a word with marks of homes put in their places: only what stands behind a colon is at
the head of a path there. -/
def Word.homedBehind (s : Session) : Word → Word
  | [] => []
  | .literal text false :: rest =>
    let head := text.takeWhile (· ≠ ':')
    match text.drop head.length with
    | ':' :: tail =>
      .literal (head ++ [':']) false ::
        (withHomes s true rest.isEmpty tail ++ Word.homedBehind s rest)
    | _ => .literal text false :: Word.homedBehind s rest
  | p :: rest => p :: Word.homedBehind s rest

/-- A word with marks of homes at its head put in their places, or also behind colons. -/
def Word.homed (s : Session) (everywhere : Bool) (w : Word) : Word :=
  if everywhere then
    match w with
    | .literal text false :: rest =>
      withHomes s true rest.isEmpty text ++ Word.homedBehind s rest
    | rest => Word.homedBehind s rest
  else
    match w with
    | .literal ('~' :: text) false :: rest => withHomes s false rest.isEmpty ('~' :: text) ++ rest
    | w => w

/-! ## Words -/

/-- What the expansion of words needs besides: the running of scripts in sessions of their own, and
of what is set for their ends. -/
structure Runner where
  run : Script → Running Unit
  traps : String → Running Unit

/-- The output of a script as it stands in a word: without line feeds at its end and without NUL. -/
def Runner.output (r : Runner) (body : Script) : Running String := do
  let s ← get
  let bytes ← Running.collect r.traps (r.run body)
  modify fun t => { t with status := s.status, answered := t.status }
  return lossy ((bytes.reverse.dropWhile (· == 10)).reverse.filter (· ≠ 0))

/-- Expands a parameter; `inner` expands a word of its change. -/
def expandParameter (inner : Use → Word → Running (List Atom)) (use : Use) (name : String)
    (change : Change) (quoted : Bool) : Running (List Atom) := do
  let s ← get
  let isAll := name = "@" ∨ name = "*"
  let isSplit := isAll ∧ use = .fields ∧ (name = "@" ∨ quoted = false)
  let (all, joined) := allArguments s use name quoted
  let value := if isAll then some joined else parameter? s name
  let whole := if isAll then all else atomsOf quoted (value.getD "")
  let hasValue := if isAll then !s.arguments.isEmpty else value.isSome
  let isThere (filled : Bool) : Bool :=
    match value with
    | some v => !filled || v != ""
    | none => false
  let given (word : Word) : Running (List Atom) := do
    let atoms ← inner use (Word.homed s false word)
    return if quoted then atoms else loosened atoms
  let needed : Running String :=
    match value with
    | some v => return v
    | none => if s.has 'u' then Running.fail s!"{name}: parameter not set" else return ""
  match change with
  | .same =>
    let _ ← needed
    return whole
  | .length =>
    let atoms := atomsOf quoted (toString (octets (← needed)).length)
    return if quoted && isSplit && !s.arguments.isEmpty then .edge true :: atoms else atoms
  | .orFail filled word =>
    if isThere filled then return whole
    else
      let message ←
        match word with
        | [] => pure (if filled then "parameter not set or null" else "parameter not set")
        | word => do pure (textOf (← inner .text word))
      Running.fail s!"{name}: {message}"
  | .orElse filled assign word =>
    if isThere filled then return whole
    else if assign then
      let text := textOf (← inner .text (Word.homed s false word))
      Running.assign name text
      return atomsOf quoted text
    else given word
  | .andThen filled word =>
    if isThere filled then given word else return if quoted then [] else [.edge false]
  | .withoutHead longest word =>
    let text ← needed
    if !hasValue then return whole
    let pattern := patternOf (← inner .text (Word.homed s false word))
    if isSplit then return atomsOfAll quoted (pattern.cutHeads longest s.arguments)
    else return atomsOf quoted (String.ofList (pattern.cutHead longest text.toList))
  | .withoutTail longest word =>
    let text ← needed
    if !hasValue then return whole
    let pattern := patternOf (← inner .text (Word.homed s false word))
    if isSplit then return atomsOfAll quoted (pattern.cutTails longest s.arguments)
    else return atomsOf quoted (String.ofList (pattern.cutTail longest text.toList))

/-- Expands a part of a word; `inner` expands the words in it. -/
def expandPiece (r : Runner) (inner : Use → Word → Running (List Atom)) (use : Use) (p : Piece) :
    Running (List Atom) := do
  match p with
  | .literal text quoted => return if quoted then .mark :: text.map .exact else text.map .plain
  | .arithmetic body quoted =>
    return atomsOf quoted (← Running.sum (textOf (← inner .text body)))
  | .output body quoted => return atomsOf quoted (← r.output body)
  | .parameter name change quoted => expandParameter inner use name change quoted
  | .badSubstitution => Running.fail "Bad substitution"

/-- Expands a word; `depth` bounds how deep words stand in words. -/
def expandWord (r : Runner) : Nat → Use → Word → Running (List Atom)
  | 0, _, _ => throw (.killed 11)
  | depth + 1, use, w => do
    let parts ← w.mapM (expandPiece r (expandWord r depth) use)
    return parts.flatten

/-- The depth of words in words. -/
def wordDepth : Nat := 200

namespace Runner

/-- The text of a word that is not split, the head of which may be the mark of a home. -/
def text (r : Runner) (w : Word) : Running String := do
  return textOf (← expandWord r wordDepth .text (w.homed (← get) false))

/-- The text of the lines of a redirection. -/
def lines (r : Runner) (w : Word) : Running String := do
  return textOf (← expandWord r wordDepth .text w)

/-- The value that a word gives a variable. -/
def value (r : Runner) (w : Word) : Running String := do
  return textOf (← expandWord r wordDepth .text (w.homed (← get) true))

/-- The pattern that a word gives. -/
def pattern (r : Runner) (w : Word) : Running Pattern := do
  return patternOf (← expandWord r wordDepth .text (w.homed (← get) false))

/-- The fields that a word gives. -/
def fields (r : Runner) (w : Word) : Running (List String) := do
  let atoms ← expandWord r wordDepth .fields (w.homed (← get) false)
  let s ← get
  return fieldsOf s.breaks (s.has 'f') s.tree atoms

/-- The fields that words give. -/
def allFields (r : Runner) (ws : List Word) : Running (List String) := do
  return (← ws.mapM r.fields).flatten

end Runner

end CoverageRun.Shell
