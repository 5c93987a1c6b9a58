/-
The programs that print: their arguments, formats filled with arguments, numbers and variables.
-/
import CoverageRun.Shell.Format
import CoverageRun.Shell.Session

namespace CoverageRun.Shell

open Text

/-- A program: what it makes of a session, given its arguments. -/
abbrev Program := List String → Session → Session

/-- Fails with a message and the advice to ask for help. -/
def Session.refuseUse (s : Session) (program message : String) (status : Nat) : Session :=
  s.refuse program s!"{message}\nTry '{program} --help' for more information." status

/-! ## Words -/

/-- Prints words in a line. Escapes are replaced and the line is ended if that is asked for. -/
def printLine (escapes ending : Bool) : Program := fun words s =>
  let line := joinText " " words
  let (bytes, stop) :=
    if escapes then Format.unescape line.length line.toList else (octets line, false)
  (s.put .output (bytes ++ if ending && !stop then [10] else [])).ended 0

/-- Prints its arguments as the shell does it, always with escapes replaced. -/
def shellEcho : Program := fun args =>
  if args.head? = some "-n" then printLine true false (args.drop 1) else printLine true true args

/-- Prints its arguments. Letters of options ask for escapes, or for no end of the line. -/
def echo : Program := fun args =>
  let isOption (a : String) : Bool :=
    a.length > 1 && a.startsWith "-" && (a.toList.drop 1).all fun c => ['n', 'e', 'E'].contains c
  let letters := (args.takeWhile isOption).flatMap String.toList
  printLine (letters.contains 'e') (!letters.contains 'n') (args.dropWhile isOption)

/-- Prints a format with its arguments. -/
def printFilled : Program := fun args s =>
  match args with
  | [] => s.protest "usage: printf format [arg ...]" 2
  | format :: args =>
    let filled := Format.fill format args
    let s := filled.complaints.reverse.foldl (fun s message => s.protest message 1) (s.ended 0)
    let s := s.put .output filled.bytes
    match filled.finish with
    | some (some message) => s.protest message 2
    | _ => s

/-- Prints a format with its arguments, before which a mark of the end of options may stand. -/
def printf : Program := fun args =>
  printFilled (if args.head? = some "--" then args.drop 1 else args)

/-! ## Numbers and variables -/

/-- Prints numbers from a first one to a last one. -/
def seq : Program := fun args s =>
  let (separator, args) := match args with
    | "-s" :: separator :: args => (separator, args)
    | a :: args =>
      match afterText? "-s" a with
      | some separator => (separator, args)
      | none => ("\n", a :: args)
    | [] => ("\n", [])
  let print (first step last : Int) : Session :=
    let count := if step = 0 then 0 else (Int.fdiv (last - first) step + 1).toNat
    let numbers := (List.range count).map fun (n : Nat) => toString (first + step * n)
    if numbers.isEmpty then s.ended 0 else (s.say (joinText separator numbers ++ "\n")).ended 0
  match args.find? fun a => a.toInt?.isNone with
  | some a => s.refuseUse "seq" s!"invalid floating point argument: '{a}'" 1
  | none =>
    match args.map fun a => a.toInt?.getD 0 with
    | [last] => print 1 1 last
    | [first, last] => print first 1 last
    | [first, step, last] =>
      if step = 0 then s.refuseUse "seq" "invalid Zero increment value: '0'" 1
      else print first step last
    | [] => s.refuseUse "seq" "missing operand" 1
    | _ =>
      let extra := args[3]?.getD ""
      s.refuseUse "seq" s!"extra operand '{extra}'" 1

/-- Prints the values of variables that programs see. -/
def printenv : Program := fun names s =>
  match names with
  | [] => s.environment.foldl (fun s v => s.say s!"{v.1}={v.2}\n") (s.ended 0)
  | names => names.foldl (fun s name =>
      match s.environment.lookup name with
      | some value => s.say (value ++ "\n")
      | none => s.ended 1) (s.ended 0)

end CoverageRun.Shell
