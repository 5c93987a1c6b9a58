/-
From words to the programs they name: by way of a path, or of the directories that are searched.
-/
import CoverageRun.Shell.Programs

namespace CoverageRun.Shell

open Files Text

/-! ## Finding programs -/

/-- What a name of a program leads to. -/
inductive Found where
  /-- A program that is always there. -/
  | stock (name : String)
  /-- A file that can be run, with its octets. -/
  | script (path : String) (bytes : List UInt8)
  deriving DecidableEq, Repr

/-- The names by which the shell itself can be run. -/
def shellNames : List String := ["sh", "dash", "bash"]

/-- The programs that run others. -/
def carrierNames : List String := ["env", "nohup", "xargs"]

/-- The programs that are always there. -/
def isStock (name : String) : Bool :=
  (program? name).isSome || shellNames.contains name || carrierNames.contains name

/-- The directories in which those programs are. -/
def stockDirectories : List String := ["/bin", "/usr/bin"]

/-- The program at a path. -/
def programAt (t : Tree) (path : String) : Except Fault Found :=
  let p : Path := ⟨path⟩
  match p.parent?, p.fileName? with
  | some dir, some name =>
    if stockDirectories.contains dir.text && isStock name then .ok (.stock name)
    else
      match t.find true p with
      | .ok (_, .file bytes true) => .ok (.script path bytes)
      | .ok _ => .error .denied
      | .error f => .error f
  | _, _ =>
    match t.find true p with
    | .ok _ => .error .denied
    | .error f => .error f

/-- The paths at which a name is looked for. -/
def candidates (searchPath name : String) : List String :=
  (split ':' searchPath.toList).map fun dir => ((Path.mk (String.ofList dir)).join name).text

/-- The first program of a name in some directories. One that must not be run is passed over, but
what is found then is that. -/
def searchIn (t : Tree) : List String → Fault → Except Fault Found
  | [], fault => .error fault
  | path :: paths, fault =>
    match programAt t path with
    | .ok found => .ok found
    | .error .denied => searchIn t paths .denied
    | .error _ => searchIn t paths fault

/-- The program that a word leads to, a name without a slash by way of the search path. -/
def findProgram (t : Tree) (searchPath word : String) : Except Fault Found :=
  if word = "" then .error .missing
  else if word.toList.contains '/' then programAt t word
  else searchIn t (candidates searchPath word) .missing

/-- The search path where none is given to a program. -/
def usualPath : String := "/usr/local/bin:/usr/bin:/bin"

/-- The search path of the shell where none is given to it. -/
def shellPath : String := "/usr/local/sbin:/usr/local/bin:/usr/sbin:/usr/bin:/sbin:/bin"

/-- The interpreter that a script names, with an argument if it gives one. -/
def interpreter? (bytes : List UInt8) : Option (List String) :=
  match bytes with
  | 35 :: 33 :: rest =>
    let isBlank (c : Char) : Bool := c == ' ' || c == '\t'
    let line := (lossy (rest.takeWhile (· ≠ 10))).toList.dropWhile isBlank
    let program := line.takeWhile fun c => !isBlank c
    let argument := (line.drop program.length).dropWhile isBlank
    let argument := (argument.reverse.dropWhile isBlank).reverse
    if program = [] then none
    else some (String.ofList program :: if argument = [] then [] else [String.ofList argument])
  | _ => none

/-- Why a word leads to no program, and the status that tells so. -/
def statusOf (word : String) : Fault → String × Nat
  | .missing | .notDirectory => (s!"{word}: not found", 127)
  | .tooManyLinks => (s!"{word}: {tooMany}", 127)
  | .nameTooLong => (s!"{word}: {tooLong}", 127)
  | f =>
    let reason := faultText f
    (s!"{word}: {reason}", 126)
where
  tooMany : String := faultText .tooManyLinks
  tooLong : String := faultText .nameTooLong

/-- A program whose interpreter is there too. -/
def withInterpreter (t : Tree) (found : Found) : Except Fault Found :=
  match found with
  | .stock _ => .ok found
  | .script _ bytes =>
    match interpreter? bytes with
    | none => .ok found
    | some words => (programAt t (words.headD "")).map fun _ => found

/-- The program that a command of the shell runs, or the message and status of a failure. A file
that must not be run is found, and then refused. -/
def lookUp (t : Tree) (searchPath word : String) : Except (String × Nat) Found :=
  if word.toList.contains '/' then
    ((programAt t word).bind (withInterpreter t)).mapError (statusOf word)
  else
    let paths := candidates searchPath word
    let isFile (path : String) : Bool := t.find true ⟨path⟩ matches .ok (_, .file _ _)
    match searchIn t paths .missing with
    | .ok found => (withInterpreter t found).mapError (statusOf word)
    | .error .denied =>
      .error (s!"{word}: Permission denied", if paths.any isFile then 126 else 127)
    | .error _ => .error (s!"{word}: not found", 127)

/-- The path of the program that a word leads to. -/
def placeOf? (t : Tree) (searchPath word : String) : Option String :=
  if word = "" then none
  else if word.toList.contains '/' then
    if (programAt t word).isOk || t.isPresent ⟨word⟩ then some word else none
  else
    (candidates searchPath word).find? fun path =>
      (programAt t path).isOk || t.find true ⟨path⟩ matches .ok (_, .file _ _)

end CoverageRun.Shell
