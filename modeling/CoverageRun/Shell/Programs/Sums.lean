/-
The program that prints what a sum, a comparison or a match of words comes to.
-/
import CoverageRun.Shell.Programs.Texts

namespace CoverageRun.Shell

open Text

/-! ## Expressions -/

/-- Why words are no expression. -/
inductive ExprFault where
  | noOperand
  | unexpected (word : String)
  | missingAfter (word : String)
  | wantsClosing (word : String)
  | notANumber
  | divisionByZero
  deriving DecidableEq, Repr

/-- The wording of a fault of an expression. -/
def ExprFault.message : ExprFault → String
  | .noOperand => "missing operand\nTry 'expr --help' for more information."
  | .unexpected word => s!"syntax error: unexpected argument '{word}'"
  | .missingAfter word => s!"syntax error: missing argument after '{word}'"
  | .wantsClosing word => s!"syntax error: expecting ')' after '{word}'"
  | .notANumber => "non-integer argument"
  | .divisionByZero => "division by zero"

/-- The operators between two operands, rank by rank from the loosest. -/
def exprRanks : List (List String) :=
  [["|"], ["&"], ["<", "<=", "=", "==", "!=", ">=", ">"], ["+", "-"], ["*", "/", "%"], [":"]]

/-- Whether a value counts as none. -/
def isNull (value : String) : Bool :=
  value == "" || (value.toInt? == some 0)

/-- The part of a text that an expression matches at its head: what its first group has matched, or
the number of octets. -/
def matchValue (text pattern : String) : String :=
  let r := Regex.ofChars false pattern.toList
  let line := text.toList.toArray
  let hasGroup := Text.contains ['\\', '('] pattern.toList
  match r.at? line 0 with
  | some f =>
    if hasGroup then
      match f.groups.lookup 1 with
      | some (a, b) => String.ofList (line.extract a b).toList
      | none => ""
    else toString f.last
  | none => if hasGroup then "" else "0"

/-- What an operator makes of two values. -/
def exprValue (op a b : String) : Except ExprFault String :=
  let numbers (f : Int → Int → Int) : Except ExprFault String :=
    match a.toInt?, b.toInt? with
    | some m, some n => .ok (toString (f m n))
    | _, _ => .error .notANumber
  let compared (holds : Ordering → Bool) : Except ExprFault String :=
    let order := match a.toInt?, b.toInt? with
      | some m, some n => Ord.compare m n
      | _, _ => Ord.compare a b
    .ok (if holds order then "1" else "0")
  match op with
  | "|" => .ok (if isNull a then (if isNull b then "0" else b) else a)
  | "&" => .ok (if isNull a || isNull b then "0" else a)
  | "<" => compared (· == .lt)
  | "<=" => compared (· != .gt)
  | "=" | "==" => compared (· == .eq)
  | "!=" => compared (· != .eq)
  | ">=" => compared (· != .lt)
  | ">" => compared (· == .gt)
  | "+" => numbers (· + ·)
  | "-" => numbers (· - ·)
  | "*" => numbers (· * ·)
  | ":" => .ok (matchValue a b)
  | op =>
    match a.toInt?, b.toInt? with
    | some m, some n =>
      if n = 0 then .error .divisionByZero
      else .ok (toString (if op = "/" then Int.tdiv m n else Int.tmod m n))
    | _, _ => .error .notANumber

mutual

/-- The value of operands of these ranks at the head of words, with the last word read and the words
left. -/
def exprRanked : Nat → List (List String) → String → List String →
    Except ExprFault (String × String × List String)
  | 0, _, seen, _ => .error (.missingAfter seen)
  | fuel + 1, [], seen, ws => exprOperand fuel seen ws
  | fuel + 1, rank :: inner, seen, ws => do
    let (a, seen, ws) ← exprRanked fuel inner seen ws
    exprChain fuel rank inner a seen ws

/-- A value put together with what follows it in its rank. -/
def exprChain : Nat → List String → List (List String) → String → String → List String →
    Except ExprFault (String × String × List String)
  | 0, _, _, a, seen, ws => .ok (a, seen, ws)
  | fuel + 1, rank, inner, a, seen, ws =>
    match ws with
    | op :: rest =>
      if rank.contains op then do
        let (b, seen, rest) ← exprRanked fuel inner op rest
        exprChain fuel rank inner (← exprValue op a b) seen rest
      else .ok (a, seen, ws)
    | [] => .ok (a, seen, [])

/-- The value of one operand. -/
def exprOperand : Nat → String → List String → Except ExprFault (String × String × List String)
  | _, seen, [] => .error (.missingAfter seen)
  | 0, seen, _ => .error (.missingAfter seen)
  | fuel + 1, _, w :: rest => do
    match w with
    | "(" =>
      let (a, seen, rest) ← exprRanked fuel exprRanks w rest
      match rest with
      | ")" :: rest => return (a, ")", rest)
      | _ => throw (.wantsClosing seen)
    | ")" => throw (.unexpected w)
    | "+" =>
      match rest with
      | [] => throw (.missingAfter w)
      | v :: rest => return (v, v, rest)
    | "length" =>
      let (a, seen, rest) ← exprOperand fuel w rest
      return (toString a.length, seen, rest)
    | "match" =>
      let (a, seen, rest) ← exprOperand fuel w rest
      let (b, seen, rest) ← exprOperand fuel seen rest
      return (matchValue a b, seen, rest)
    | "index" =>
      let (a, seen, rest) ← exprOperand fuel w rest
      let (b, seen, rest) ← exprOperand fuel seen rest
      let place := (a.toList.findIdx? fun c => b.toList.contains c).map (· + 1)
      return (toString (place.getD 0), seen, rest)
    | "substr" =>
      let (a, seen, rest) ← exprOperand fuel w rest
      let (b, seen, rest) ← exprOperand fuel seen rest
      let (c, seen, rest) ← exprOperand fuel seen rest
      match b.toInt?, c.toInt? with
      | some place, some count =>
        let text := if place ≤ 0 ∨ count ≤ 0 then []
          else (a.toList.drop (place.toNat - 1)).take count.toNat
        return (String.ofList text, seen, rest)
      | _, _ => return ("", seen, rest)
    | w => return (w, w, rest)

end

/-- The value of words as an expression. -/
def exprOf (ws : List String) : Except ExprFault String := do
  if ws = [] then throw .noOperand
  match ← exprRanked (16 * ws.length + 16) exprRanks "" ws with
  | (a, _, []) => return a
  | (_, _, w :: _) => throw (.unexpected w)

/-- Prints what an expression comes to. It fails where that is zero or nothing. -/
def expr : Program := fun args s =>
  let args := if args.head? = some "--" then args.drop 1 else args
  match exprOf args with
  | .ok value => (s.say (value ++ "\n")).ended (if isNull value then 1 else 0)
  | .error f => s.refuse "expr" f.message 2

end CoverageRun.Shell
