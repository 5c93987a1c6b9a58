/-
What the shell does itself with directories, rights and names of commands.
-/
import CoverageRun.Shell.Builtins.Variables
import CoverageRun.Shell.Grammar
import CoverageRun.Shell.Search

namespace CoverageRun.Shell

open Files Text Running

/-! ## Directories -/

/-- A path walked from a directory by its text alone: steps up undo what stands before them. -/
def walked (origin path : String) : String :=
  let start := if path.startsWith "/" then [] else (split '/' origin.toList).filter (· ≠ [])
  let names := (split '/' path.toList).foldl
    (fun done name =>
      if name = [] ∨ name = ['.'] then done
      else if name = ['.', '.'] then done.dropLast
      else done ++ [name]) start
  "/" ++ String.ofList (join ['/'] names)

/-- Changes the directory to a path, if it leads to one. -/
def enterDirectory (isPhysical : Bool) (path : String) : Running Bool := do
  let s ← get
  let place := walked s.place path
  match s.tree.find true ⟨if isPhysical then path else place⟩ with
  | .ok (loc, .directory) =>
    let place := if isPhysical then (Tree.pathOf loc).text else place
    let old := s.place
    set (({ s with tree := { s.tree with home := loc }, place }).supply ("OLDPWD", old)
      |>.supply ("PWD", place))
    return true
  | _ => return false

/-- The directories in which those that are named are looked for first, with the path in each. -/
def searchedPlaces (s : Session) (dest : String) : List (String × Bool) :=
  let isFixed := match (split '/' dest.toList).head? with
    | some [] | some ['.'] | some ['.', '.'] => true
    | _ => false
  match s.value? "CDPATH" with
  | some dirs =>
    if isFixed then []
    else (split ':' dirs.toList).map fun dir =>
      (((Path.mk (String.ofList dir)).join dest).text, dir ≠ [])
  | none => []

/-- Changes the directory. -/
def changeDirectory : Builtin := fun args => do
  let (options, args) ← optionsOf "LP" "" args
  let isPhysical := (options.getLast?.map (·.1)) = some 'P'
  let s ← get
  let (dest, isShown) : String × Bool :=
    match args with
    | [] => ((s.value? "HOME").getD "", false)
    | "-" :: _ => ((s.value? "OLDPWD").getD "", true)
    | dest :: _ => (dest, false)
  let path := if dest = "" then "." else dest
  let isThere (p : String × Bool) : Bool := s.tree.isDirectory ⟨p.1⟩
  let (path, isShown) := ((searchedPlaces s path).find? isThere).getD (path, isShown)
  if ← enterDirectory isPhysical path then
    if isShown then modify fun s => s.say (s.place ++ "\n")
    finish 0
  else fail s!"can't cd to {dest}"

/-- Prints the directory the session is in, as it was come by or through no link. -/
def printDirectory : Builtin := fun args => do
  let (options, _) ← optionsOf "LP" "" args
  modify fun s =>
    let isPhysical := (options.getLast?.map (·.1)) = some 'P'
    s.say ((if isPhysical then (Tree.pathOf s.tree.home).text else s.place) ++ "\n")
  finish 0

/-! ## Rights -/

/-- The letters of the rights that three bits give. -/
def rightsText (bits : Nat) : String :=
  String.ofList ((if bits / 4 % 2 = 1 then ['r'] else []) ++
    (if bits / 2 % 2 = 1 then ['w'] else []) ++ (if bits % 2 = 1 then ['x'] else []))

/-- A number of three octal digits, and a zero before them. -/
def octalText (n : Nat) : String :=
  String.ofList ('0' :: [64, 8, 1].map fun unit => Char.ofNat ('0'.toNat + n / unit % 8))

/-- The bits of the classes that letters name, and of the rights. -/
def rightsClause? (mask : Nat) (clause : List Char) : Option Nat :=
  let who := clause.takeWhile fun c => ['u', 'g', 'o', 'a'].contains c
  match clause.drop who.length with
  | op :: rights =>
    if !rights.all (fun c => ['r', 'w', 'x', 'X', 's'].contains c) then none
    else
      let bits := (if rights.contains 'r' then 4 else 0) + (if rights.contains 'w' then 2 else 0) +
        (if rights.contains 'x' then 1 else 0)
      let isIn (c : Char) : Bool := who = [] || who.contains c || who.contains 'a'
      let change (unit : Nat) (chosen : Bool) : Nat :=
        let kept := 7 - mask / unit % 8
        let fresh :=
          if !chosen then kept
          else if op = '=' then bits
          else if op = '+' then kept ||| bits
          else kept &&& (7 - bits)
        (7 - fresh) * unit
      if ['=', '+', '-'].contains op then
        some (change 64 (isIn 'u') + change 8 (isIn 'g') + change 1 (isIn 'o'))
      else none
  | [] => none

/-- Prints or sets the rights that new files do not get. -/
def umask : Builtin := fun args => do
  let (options, args) ← optionsOf "S" "" args
  let s ← get
  match args with
  | [] =>
    let rights (unit : Nat) : String := rightsText (7 - s.mask / unit % 8)
    let (u, g, o) := (rights 64, rights 8, rights 1)
    set (s.say (if options.isEmpty then octalText s.mask ++ "\n" else s!"u={u},g={g},o={o}\n"))
    finish 0
  | text :: _ =>
    let cs := text.toList
    if (cs.head?.map isDigit).getD false then
      let (n, rest) := takeDigits 8 0 cs
      if rest = [] ∧ n < 512 then
        set { s with mask := n }
        finish 0
      else fail s!"Illegal number: {text}"
    else
      let masks := (split ',' cs).foldl
        (fun mask clause => mask.bind fun m => rightsClause? m clause) (some s.mask)
      match masks with
      | some mask =>
        set { s with mask }
        finish 0
      | none => fail s!"Illegal mode: {text}"

/-- Prints a bound on what the session may use; there are none. -/
def ulimit : Builtin := fun args => do
  if (args.filter fun a => !a.startsWith "-").isEmpty then
    modify fun s => s.say "unlimited\n"
  finish 0

/-! ## Names -/

/-- What the shell does itself and what may be called by its name alone. -/
def plainBuiltins : List String :=
  ["[", "alias", "bg", "cd", "chdir", "command", "echo", "false", "fg", "getopts", "hash", "jobs",
    "kill", "printf", "pwd", "read", "test", "true", "type", "ulimit", "umask", "unalias", "wait"]

/-- Whether the shell does something itself. -/
def isBuiltin (name : String) : Bool :=
  specialBuiltins.contains name || plainBuiltins.contains name

/-- Tells what a name stands for, in a sentence or by what it takes to call it: whether it stands
for anything. -/
def describe (inWords : Bool) (name : String) : Running Bool := do
  let s ← get
  let tell (words brief : String) : Running Bool := do
    modify fun s => s.say ((if inWords then name ++ words else brief) ++ "\n")
    return true
  if reservedWords.contains name then tell " is a shell keyword" name
  else
    match s.aliases.get? name with
    | some text => tell s!" is an alias for {text}" s!"alias {name}={singleQuoted text}"
    | none =>
      if (s.functions.get? name).isSome then tell " is a shell function" name
      else if specialBuiltins.contains name then tell " is a special shell builtin" name
      else if plainBuiltins.contains name then tell " is a shell builtin" name
      else
        match placeOf? s.tree s.searchPath name with
        | some path =>
          let isKnown := s.known.contains name
          if !name.toList.contains '/' then set { s with known := name :: s.known.erase name }
          tell (if isKnown then s!" is a tracked alias for {path}" else s!" is {path}") path
        | none =>
          if inWords then set (s.say s!"{name}: not found\n")
          return false

/-- Tells what names stand for. -/
def typeOf : Builtin := fun args => do
  let (_, names) ← optionsOf "" "" args
  let unknown ← names.filterM fun name => do return !(← describe true name)
  finish (if unknown.isEmpty then 0 else 127)

/-- Remembers where programs are, forgets that, or lists it. -/
def hash : Builtin := fun args => do
  let (options, names) ← optionsOf "r" "" args
  let s ← get
  if !options.isEmpty then
    set { s with known := [] }
    finish 0
  else if names.isEmpty then
    let paths := s.known.filterMap (placeOf? s.tree s.searchPath)
    set (s.say (String.join (paths.map (· ++ "\n"))))
    finish 0
  else
    let unknown ← names.filterM fun name => do
      let s ← get
      if isBuiltin name || (s.functions.get? name).isSome then return false
      else if (placeOf? s.tree s.searchPath name).isSome then
        set { s with known := name :: s.known.erase name }
        return false
      else
        warn s!"{name}: not found" 1
        return true
    finish (if unknown.isEmpty then 0 else 1)

/-- Gives names other texts, or lists those that have one. -/
def aliasCommand : Builtin := fun args => do
  let s ← get
  let line (name text : String) : String := s!"{name}={singleQuoted text}\n"
  if args.isEmpty then
    set (s.say (String.join (s.aliases.entries.map fun a => line a.1 a.2)))
    finish 0
  else
    let unknown ← args.filterM fun a => do
      let s ← get
      match settingOf a, s.aliases.get? a with
      | (name, some text), _ =>
        if name = "" then
          set (s.complain s!"alias: {a} not found")
          return true
        else
          set { s with aliases := s.aliases.insert name text }
          return false
      | _, some text =>
        set (s.say (line a text))
        return false
      | _, none =>
        set (s.complain s!"alias: {a} not found")
        return true
    finish (if unknown.isEmpty then 0 else 1)

/-- Takes other texts from names. -/
def unalias : Builtin := fun args => do
  let (options, names) ← optionsOf "a" "" args
  let s ← get
  if !options.isEmpty then
    set { s with aliases := .empty }
    finish 0
  else
    let unknown := names.filter fun name => (s.aliases.get? name).isNone
    let s := unknown.foldl (fun s name => s.complain s!"unalias: {name} not found") s
    set { s with aliases := s.aliases.filter fun n _ => !names.contains n }
    finish (if unknown.isEmpty then 0 else 1)

end CoverageRun.Shell
