/-
The program at a terminal: it reads the working directory and the environment, does its work on them
and writes back what has changed. Commands are run by the shell of this library, and uploads reach
nobody.
-/
import CoverageRun.CommandLine.Program

namespace CoverageRun.Main

open Files

/-! ## Reading -/

/-- The variables of the environment. -/
def environment : IO Shell.Environment := do
  let bytes ← IO.FS.readBinFile "/proc/self/environ"
  let settings := Text.split '\x00' (Text.lossy bytes.toList).toList
  return .ofList (settings.filterMap fun s =>
    (Text.cut '=' s).map fun (name, value) => (String.ofList name, String.ofList value))

/-- The tree with all that is in a directory, which stands at a location. A file is a program if it
names what interprets it; a link counts as the file it leads to. -/
partial def load (t : Tree) (loc : Location) : IO Tree := do
  let here ← IO.FS.realPath (Tree.pathOf loc).text
  let entries ← here.readDir
  entries.toList.foldlM (fun t entry => do
    let inner := loc ++ [entry.fileName]
    let kind := (← entry.path.symlinkMetadata).type
    if kind matches .dir then load (t.put inner .directory) inner
    else
      match ← (IO.FS.readBinFile entry.path).toBaseIO with
      | .ok bytes =>
        let isProgram := (Shell.interpreter? bytes.toList).isSome
        return t.put inner (.file bytes.toList isProgram)
      | .error _ => return t) t

/-! ## Writing -/

/-- Makes the directory hold what the tree holds after the work, given what it held before. -/
def store (before after : Tree) : IO Unit := do
  for (loc, e) in after.entries.entries do
    if before.entry? loc ≠ some e then
      let path := (Tree.pathOf loc).text
      match e with
      | .directory => IO.FS.createDirAll path
      | .file bytes _ => IO.FS.writeBinFile path ⟨bytes.toArray⟩
      | .link _ => pure ()
  for (loc, e) in before.entries.entries.reverse do
    if (after.entry? loc).isNone then
      let path := (Tree.pathOf loc).text
      if e = .directory then IO.FS.removeDirAll path else IO.FS.removeFile path

/-- The name of a run that has none: random octets. -/
def freshName : IO String := do
  let bytes ← IO.getRandomBytes 16
  return Text.hexOf bytes.toList

end CoverageRun.Main

open CoverageRun

/-- Runs the program. -/
def main (args : List String) : IO UInt32 := do
  let here ← IO.currentDir
  let home := Files.pieces here.toString
  let before ← Main.load (.empty home) home
  let outside : CommandLine.Outside Unit :=
    ⟨← Main.environment, ← Main.freshName, Upload.Transport.unreachable⟩
  let o := CommandLine.execute outside () args before
  Main.store before o.tree
  IO.print o.output
  IO.eprint o.errors
  return UInt32.ofNat (o.exitCode.getD 1).toNat
