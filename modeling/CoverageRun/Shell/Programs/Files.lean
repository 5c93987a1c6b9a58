/-
The programs that work on paths and files.
-/
import CoverageRun.Shell.Programs.Texts

namespace CoverageRun.Shell

open Files Text

/-! ## Paths -/

/-- Prints the last name of a path, without an ending if one is given. -/
def basename : Program := fun args s =>
  match args with
  | [] => s.refuseUse "basename" "missing operand" 1
  | p :: rest =>
    let bare := (p.toList.reverse.dropWhile (· == '/')).reverse
    let name := if bare = [] then ['/'] else ((Text.split '/' bare).getLast?).getD []
    let name := match rest with
      | ending :: _ =>
        if name = ending.toList then name else (Text.before? ending.toList name).getD name
      | [] => name
    (s.say (String.ofList name ++ "\n")).ended 0

/-- Prints paths without their last names. -/
def dirname : Program := fun args s =>
  let shown (p : String) : String :=
    let bare := (p.toList.reverse.dropWhile (· == '/')).reverse
    let lead := (bare.reverse.dropWhile (· != '/')).dropWhile (· == '/')
    String.ofList
      (if lead ≠ [] then lead.reverse else if p.startsWith "/" then ['/'] else ['.'])
  match args with
  | [] => s.refuseUse "dirname" "missing operand" 1
  | paths => (sayLines s (paths.map shown)).ended 0

/-- Prints the path of the directory the session is in, through no link. -/
def realDirectory : Program := fun _ s => (s.say ((Tree.pathOf s.tree.home).text ++ "\n")).ended 0

/-- Prints where links lead, or the paths through no link. -/
def readlink : Program := fun args s =>
  let (letters, paths) := options args
  let isDeep := letters.any fun c => ['f', 'e', 'm'].contains c
  withKnown "readlink" "femnqsvz" letters 1 s <|
    if paths.isEmpty then s.refuseUse "readlink" "missing operand" 1
    else paths.foldl (fun s p =>
      if isDeep then
        match s.tree.place true ⟨p⟩ with
        | .ok (.entry loc _) => s.say ((Tree.pathOf loc).text ++ "\n")
        | .ok (.vacant dir name) => s.say ((Tree.pathOf (dir ++ [name])).text ++ "\n")
        | .error _ => s.ended 1
      else
        match s.tree.find false ⟨p⟩ with
        | .ok (_, .link target) => s.say (target ++ "\n")
        | _ => s.ended 1) (s.ended 0)

/-- Prints the paths through no link. -/
def realpath : Program := fun args s =>
  let paths := (options args).2
  if paths.isEmpty then s.refuseUse "realpath" "missing operand" 1
  else paths.foldl (fun s p =>
    match s.tree.place true ⟨p⟩ with
    | .ok (.entry loc _) => s.say ((Tree.pathOf loc).text ++ "\n")
    | .ok (.vacant dir name) => s.say ((Tree.pathOf (dir ++ [name])).text ++ "\n")
    | .error f => s.refuse "realpath" s!"{p}: {faultText f}" 1) (s.ended 0)

/-! ## Files -/

/-- Prints the names in directories. -/
def ls : Program := fun args s =>
  let (letters, given) := options args
  let isShown (name : String) : Bool :=
    letters.contains 'a' || letters.contains 'A' || !name.startsWith "."
  let ordered (names : List String) : List String :=
    let sorted := names.mergeSort
    if letters.contains 'r' then sorted.reverse else sorted
  let paths := if given.isEmpty then ["."] else ordered given
  let s := s.ended 0
  let isDirectory (p : String) : Bool := s.tree.isDirectory ⟨p⟩ && !letters.contains 'd'
  let isThere (p : String) : Bool := (s.tree.find false ⟨p⟩).isOk
  let (there, gone) := paths.partition isThere
  let s := gone.foldl (fun s p =>
    let reason := match s.tree.find false ⟨p⟩ with
      | .error f => faultText f
      | .ok _ => ""
    s.refuse "ls" s!"cannot access '{p}': {reason}" 2) s
  let (dirs, files) := there.partition isDirectory
  let marked (dir : String) (name : String) : String :=
    if letters.contains 'F' || letters.contains 'p' then
      match s.tree.find false ((Path.mk dir).join name) with
      | .ok (_, .directory) => name ++ "/"
      | .ok (_, .file _ true) => if letters.contains 'F' then name ++ "*" else name
      | .ok (_, .link _) => if letters.contains 'F' then name ++ "@" else name
      | _ => name
    else name
  let s := sayLines s (files.map (marked ""))
  let listing (p : String) : List String :=
    match s.tree.find true ⟨p⟩ with
    | .ok (loc, _) =>
      (ordered ((if letters.contains 'a' then [".", ".."] else []) ++
        ((s.tree.children loc).map (·.1)).filter isShown)).map (marked p)
    | .error _ => []
  if paths.length = 1 ∧ letters.contains 'R' = false then sayLines s (dirs.flatMap listing)
  else
    let blocks := dirs.map fun p => s!"{p}:\n" ++ String.join ((listing p).map (· ++ "\n"))
    let lead := if files.isEmpty || dirs.isEmpty then "" else "\n"
    s.say (lead ++ joinText "\n" blocks)

/-- Applies a change to each of several paths; a fault is complained of. -/
def changeEach (program verb : String) (change : Tree → Path → Except Fault Tree)
    (paths : List String) (s : Session) : Session :=
  paths.foldl (fun s p =>
    match change s.tree ⟨p⟩ with
    | .ok tree => { s with tree }
    | .error f => s.refuse program s!"{verb} '{p}': {faultText f}" 1) (s.ended 0)

/-- Fails where a program that needs them is given no paths. -/
def withPaths (program : String) (paths : List String) (s work : Session) : Session :=
  if paths.isEmpty then s.refuseUse program "missing operand" 1 else work

/-- Makes directories. -/
def mkdir : Program := fun args s =>
  let (letters, paths) := options args
  withPaths "mkdir" paths s <| changeEach "mkdir" "cannot create directory"
    (fun t p => if letters.contains 'p' then t.makeDirectories p else t.makeDirectory p) paths s

/-- A tree without an entry and all that is below it. -/
def withoutAll (t : Tree) (p : Path) : Except Fault Tree := do
  let (loc, _) ← t.find false p
  return { t with entries := t.entries.filter fun l _ => !loc.isPrefixOf l }

/-- Removes files, and directories if asked to. -/
def rm : Program := fun args s =>
  let (letters, paths) := options args
  (if letters.contains 'f' then id else withPaths "rm" paths s) <|
    changeEach "rm" "cannot remove"
    (fun t p =>
      let removed :=
        if letters.contains 'r' || letters.contains 'R' then withoutAll t p else t.removeFile p
      match removed with
      | .error .missing => if letters.contains 'f' then .ok t else .error .missing
      | r => r)
    paths s

/-- Removes empty directories. -/
def rmdir : Program := fun args s =>
  args.foldl (fun s p =>
    let complain (reason : String) : Session :=
      s.refuse "rmdir" s!"failed to remove '{p}': {reason}" 1
    match s.tree.find false ⟨p⟩ with
    | .ok (loc, .directory) =>
      if (s.tree.children loc).isEmpty then { s with tree := s.tree.erase loc }
      else complain "Directory not empty"
    | .ok _ => complain (faultText .notDirectory)
    | .error f => complain (faultText f)) (s.ended 0)

/-- Makes empty files where there are none. -/
def touch : Program := fun args s =>
  let (letters, paths) := options args
  (if paths.isEmpty then fun _ => s.refuseUse "touch" "missing file operand" 1 else id) <|
    changeEach "touch" "cannot touch"
      (fun t p => if t.isPresent p || letters.contains 'c' then .ok t else t.write p []) paths s

/-- A path to put something at: where it leads to a directory, that name in it. -/
def targetFor (t : Tree) (source target : Path) : Path :=
  if t.isDirectory target then target.join (source.fileName?.getD "") else target

/-- Splits paths into those before the last one, and the last one. -/
def sourcesAndTarget (paths : List String) : List String × Path :=
  (paths.dropLast, ⟨paths.getLastD ""⟩)

/-- A tree with a copy of all that is below a directory. -/
def copyAll (t : Tree) (source : Location) (target : Location) : Tree :=
  (t.beneath source).foldl (fun t e => t.put (target ++ e.1) e.2) (t.put target .directory)

/-- Fails where too few paths are given to a program that puts one in the place of another. -/
def withTarget (program : String) (paths : List String) (s : Session) (work : Session) : Session :=
  match paths with
  | [] => s.refuseUse program "missing file operand" 1
  | [p] => s.refuseUse program s!"missing destination file operand after '{p}'" 1
  | _ =>
    let target := paths.getLastD ""
    if paths.length > 2 ∧ s.tree.isDirectory ⟨target⟩ = false then
      let fault := if s.tree.isPresent ⟨target⟩ then "" else ": No such file or directory"
      s.refuse program s!"target '{target}'{fault}" 1
    else work

/-- Copies files, and directories if asked to. -/
def cp : Program := fun args s =>
  let (letters, paths) := options args
  let (sources, target) := sourcesAndTarget paths
  let isDeep := letters.any fun c => ['r', 'R', 'a'].contains c
  let (plain, omitted) := sources.partition fun p => isDeep || !s.tree.isDirectory ⟨p⟩
  let warned := omitted.foldl (fun s p =>
    s.complain s!"cp: -r not specified; omitting directory '{p}'") s
  withTarget "cp" paths s <|
    (fun t => if omitted.isEmpty then t else t.ended 1) <|
    changeEach "cp" "cannot stat"
    (fun t p => do
      match ← t.find true p with
      | (loc, .directory) =>
        match ← t.place true (targetFor t p target) with
        | .vacant dir name => return copyAll t loc (dir ++ [name])
        | .entry other _ => return copyAll t loc other
      | (_, .file bytes executable) =>
        let t ← t.write (targetFor t p target) bytes
        match t.find true (targetFor t p target) with
        | .ok (loc, _) => return t.put loc (.file bytes executable)
        | .error _ => return t
      | _ => throw .missing)
    plain warned

/-- Gives files other names, or moves them into a directory. -/
def mv : Program := fun args s =>
  let paths := (options args).2
  let (sources, target) := sourcesAndTarget paths
  withTarget "mv" paths s <| changeEach "mv" "cannot stat"
    (fun t p => do
      match ← t.find false p with
      | (loc, .directory) =>
        match ← t.place true (targetFor t p target) with
        | .vacant dir name =>
          let copied := copyAll t loc (dir ++ [name])
          return { copied with entries := copied.entries.filter fun l _ => !loc.isPrefixOf l }
        | .entry _ _ => throw .present
      | _ => t.rename p (targetFor t p target))
    sources s

/-- Makes symbolic links, or gives files further names. -/
def ln : Program := fun args s =>
  let (letters, paths) := options args
  let paths := match paths with
    | [p] => [p, "."]
    | paths => paths
  let (sources, target) := sourcesAndTarget paths
  let isSoft := letters.contains 's'
  sources.foldl (fun s p =>
    let place := targetFor s.tree ⟨p⟩ target
    let t := if letters.contains 'f' then s.tree.discard place else s.tree
    let made : Except Fault Tree :=
      if isSoft then t.makeLink place p
      else do
        let (_, entry) ← t.find false ⟨p⟩
        match ← t.place false place with
        | .entry _ _ => throw .present
        | .vacant dir name => return t.put (dir ++ [name]) entry
    match made with
    | .ok tree => { s with tree }
    | .error f =>
      if !isSoft && !(t.find false ⟨p⟩).isOk then
        s.refuse "ln" s!"failed to access '{p}': {faultText f}" 1
      else
        let kind := if isSoft then "symbolic" else "hard"
        let arrow := if isSoft ∧ f ≠ .present then s!" -> '{p}'" else ""
        s.refuse "ln" s!"failed to create {kind} link '{place.text}'{arrow}: {faultText f}" 1)
    (s.ended 0)

/-- Makes files programs, or ordinary files. -/
def chmod : Program := fun args s =>
  match args with
  | [] => s.refuseUse "chmod" "missing operand" 1
  | [mode] => s.refuseUse "chmod" s!"missing operand after '{mode}'" 1
  | mode :: paths =>
    let executable := if mode.toList.contains 'x' then !mode.toList.contains '-'
      else mode.toList.any fun c => ['1', '3', '5', '7'].contains c
    changeEach "chmod" "cannot access"
      (fun t p => do
        match ← t.find true p with
        | (loc, .file bytes _) => return t.put loc (.file bytes executable)
        | _ => return t)
      paths s

end CoverageRun.Shell
