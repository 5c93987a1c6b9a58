/-
The programs that are always there, by their names. Each is a function of its arguments and the
session it runs in.
-/
import CoverageRun.Shell.Programs.Editing
import CoverageRun.Shell.Programs.Files
import CoverageRun.Shell.Programs.Sums
import CoverageRun.Shell.Programs.Tests

namespace CoverageRun.Shell

/-! ## Time -/

/-- A time in seconds, minutes or hours as thousandths of a second. -/
def durationOf (text : String) : Option Nat :=
  let cs := text.toList
  let (scale, cs) : Nat × List Char :=
    match cs.getLast? with
    | some 's' => (1, cs.dropLast)
    | some 'm' => (60, cs.dropLast)
    | some 'h' => (3600, cs.dropLast)
    | some 'd' => (86400, cs.dropLast)
    | _ => (1, cs)
  let whole := cs.takeWhile Char.isDigit
  let value (ds : List Char) : Nat := ds.foldl (fun n d => 10 * n + (d.toNat - 48)) 0
  match cs.drop whole.length with
  | [] => if whole = [] then none else some (1000 * value whole * scale)
  | '.' :: rest =>
    if rest.all Char.isDigit then
      let digits := (rest ++ ['0', '0', '0']).take 3
      some ((1000 * value whole + value digits) * scale)
    else none
  | _ => none

/-- Lets time pass. -/
def sleep : Program := fun args s =>
  match args with
  | [] => s.refuseUse "sleep" "missing operand" 1
  | args =>
    let bad := (args.find? fun a => (durationOf a).isNone).getD ""
    match args.mapM fun a => if a = "infinity" then some 1000000000000 else durationOf a with
    | some times => (s.after (times.foldl (· + ·) 0)).ended 0
    | none => s.refuseUse "sleep" s!"invalid time interval '{bad}'" 1

/-! ## All programs -/

/-- Compares two files octet by octet. -/
def cmp : Program := fun args s =>
  let (letters, paths) := options args
  match paths with
  | [a, b] =>
    match contents s a, contents s b with
    | .error f, _ => s.refuse "cmp" s!"{a}: {faultText f}" 2
    | _, .error f => s.refuse "cmp" s!"{b}: {faultText f}" 2
    | .ok x, .ok y =>
      let same := ((x.zip y).takeWhile fun p => p.1 == p.2).map (·.1)
      let place := same.length + 1
      let line := same.count 10 + 1
      if x = y then s.ended 0
      else if letters.contains 's' then s.ended 1
      else if same.length = min x.length y.length then
        let short := if x.length < y.length then a else b
        let seen := if same.getLast? = some 10 then line - 1 else line
        let spot := if same.getLast? = some 10 then s!"line {seen}" else s!"in line {seen}"
        if same = [] then s.refuse "cmp" s!"EOF on {short} which is empty" 1
        else s.refuse "cmp" s!"EOF on {short} after byte {same.length}, {spot}" 1
      else (s.say s!"{a} {b} differ: byte {place}, line {line}\n").ended 1
  | _ => s.refuseUse "cmp" "missing operand" 2

/-- Prints the lines of files, the last one first. -/
def tac : Program := fun args s =>
  let (bytes, s) := gather "tac" (options args).2 s
  s.put .output (octetLines bytes).reverse.flatten

/-- Prints the lines of files, each with its characters in reverse. -/
def rev : Program := fun args s =>
  let (bytes, s) := gather "rev" (options args).2 s
  sayLines s ((linesOf bytes).map fun l => String.ofList l.toList.reverse)

/-- Prints a line again and again, as often as anything is going to read it. -/
def yes : Program := fun args s =>
  let line := (if args.isEmpty then "y" else Text.joinText " " args) ++ "\n"
  let bytes := Text.octets line
  (s.put .output (List.replicate (131072 / bytes.length + 1) bytes).flatten).ended 0

/-- Prints the name of the system. -/
def uname : Program := fun args s =>
  if args = [] ∨ args = ["-s"] then (s.say "Linux\n").ended 0
  else if args = ["-m"] then (s.say "x86_64\n").ended 0
  else s.ended 0

/-- Prints the number or the name of the user. -/
def id : Program := fun args s =>
  let shown :=
    if args.contains "-un" || args.contains "-gn" then "root"
    else if args.any fun a => a.startsWith "-" then "0"
    else "uid=0(root) gid=0(root) groups=0(root)"
  (s.say (shown ++ "\n")).ended 0

/-- The program of a name. -/
def program? (name : String) : Option Program :=
  match name with
  | "true" => some fun _ s => s.ended 0
  | "false" => some fun _ s => s.ended 1
  | "echo" => some echo
  | "printf" => some printf
  | "seq" => some seq
  | "test" => some test
  | "[" => some bracket
  | "cat" => some cat
  | "head" => some head
  | "tail" => some tail
  | "tac" => some tac
  | "rev" => some rev
  | "wc" => some wc
  | "sort" => some sort
  | "uniq" => some uniq
  | "grep" => some grep
  | "egrep" => some fun args => grep ("-E" :: args)
  | "fgrep" => some fun args => grep ("-F" :: args)
  | "sed" => some sed
  | "tr" => some tr
  | "cut" => some cut
  | "tee" => some tee
  | "cmp" => some cmp
  | "expr" => some expr
  | "yes" => some yes
  | "uname" => some uname
  | "id" => some id
  | "whoami" => some fun _ s => (s.say "root\n").ended 0
  | "tty" => some fun _ s => (s.say "not a tty\n").ended 1
  | "printenv" => some printenv
  | "basename" => some basename
  | "dirname" => some dirname
  | "readlink" => some readlink
  | "realpath" => some realpath
  | "pwd" => some realDirectory
  | "ls" => some ls
  | "mkdir" => some mkdir
  | "rm" => some rm
  | "rmdir" => some rmdir
  | "touch" => some touch
  | "cp" => some cp
  | "mv" => some mv
  | "ln" => some ln
  | "chmod" => some chmod
  | "sleep" => some sleep
  | _ => none

end CoverageRun.Shell
