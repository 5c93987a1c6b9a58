/-
Sums: the integer expressions of the shell, on numbers of 64 bits that wrap around. Names stand for
variables, which sums may set; what a sum does not need of its parts is read, but not worked out.
-/
import CoverageRun.Shell.Number
import CoverageRun.Shell.Session

namespace CoverageRun.Shell.Sum

/-! ## Tokens -/

inductive Token where
  | number (n : Int64)
  | name (s : String)
  | sign (s : String)
  /-- A character of which no token is made; nothing behind it is read. -/
  | junk
  deriving DecidableEq, Repr

/-- The signs, longer ones first. -/
def signs : List String :=
  ["<<=", ">>=", "||", "&&", "==", "!=", "<=", ">=", "<<", ">>", "+=", "-=", "*=", "/=", "%=",
    "&=", "|=", "^=", "=", "|", "^", "&", "<", ">", "+", "-", "*", "/", "%", "!", "~", "(", ")",
    "?", ":"]

/-- The tokens of a sum; `fuel` is at least the number of its characters. -/
def tokensWithin : Nat → List Char → List Token
  | 0, _ | _, [] => []
  | fuel + 1, c :: r =>
    if isSpace c ∨ c = '\n' then tokensWithin fuel r
    else if isDigit c then
      match takeMagnitude? .marked (c :: r) with
      | some (n, rest) => .number (saturated n) :: tokensWithin fuel rest
      | none => [.junk]
    else if isNameStart c then
      .name (String.ofList ((c :: r).takeWhile isNameChar)) ::
        tokensWithin fuel (r.dropWhile isNameChar)
    else
      match signs.find? fun s => Text.startsWith s.toList (c :: r) with
      | some s => .sign s :: tokensWithin fuel ((c :: r).drop s.length)
      | none => [.junk]

/-- The tokens of a sum. -/
def tokens (cs : List Char) : List Token := tokensWithin cs.length cs

/-! ## Faults -/

/-- Why a sum has no value. -/
inductive Fault where
  | noOperand
  | noClosing
  | noColon
  | noEnd
  | divisionByZero
  /-- A quotient that is no number of 64 bits, which ends the session. -/
  | overflow
  /-- The value of a variable is no number. -/
  | badValue (text : String)
  /-- Nothing changes the variable. -/
  | fixed (name : String)
  deriving DecidableEq, Repr

/-- The wording of a fault of a sum. -/
def Fault.message (sum : String) : Fault → String
  | .noOperand => s!"arithmetic expression: expecting primary: \"{sum}\""
  | .noClosing => s!"arithmetic expression: expecting ')': \"{sum}\""
  | .noColon => s!"arithmetic expression: expecting ':': \"{sum}\""
  | .noEnd => s!"arithmetic expression: expecting EOF: \"{sum}\""
  | .divisionByZero => s!"arithmetic expression: division by zero: \"{sum}\""
  | .overflow => "Floating point exception"
  | .badValue text => s!"Illegal number: {text}"
  | .fixed name => s!"{name}: is read only"

/-- Work on a sum: it reads and sets the variables of a session. -/
abbrev Working := ExceptT Fault (StateM Session)

/-! ## Operators -/

/-- A truth as a number. -/
def ofTruth (b : Bool) : Int64 := if b then 1 else 0

/-- What an operator makes of two numbers. Shifts go by the lowest six bits of their amount. -/
def combine (sign : String) (a b : Int64) : Except Fault Int64 :=
  match sign with
  | "==" => .ok (ofTruth (a == b))
  | "!=" => .ok (ofTruth (a != b))
  | "<=" => .ok (ofTruth (a ≤ b))
  | ">=" => .ok (ofTruth (b ≤ a))
  | "<" => .ok (ofTruth (a < b))
  | ">" => .ok (ofTruth (b < a))
  | "<<" => .ok (a <<< b)
  | ">>" => .ok (a >>> b)
  | "|" => .ok (a ||| b)
  | "^" => .ok (a ^^^ b)
  | "&" => .ok (a &&& b)
  | "+" => .ok (a + b)
  | "-" => .ok (a - b)
  | "*" => .ok (a * b)
  | "/" | "%" =>
    if b = 0 then .error .divisionByZero
    else if a = Int64.minValue ∧ b = -1 then .error .overflow
    else .ok (if sign = "/" then a / b else a % b)
  | _ => .ok b

/-- The operators between two numbers, rank by rank from the loosest. -/
def ranks : List (List String) :=
  [["|"], ["^"], ["&"], ["==", "!="], ["<=", ">=", "<", ">"], ["<<", ">>"], ["+", "-"],
    ["*", "/", "%"]]

/-- The operator that an assignment applies before it sets a variable; a plain one applies none. -/
def assigned? (sign : String) : Option String :=
  if sign = "=" then some ""
  else if ["+=", "-=", "*=", "/=", "%=", "<<=", ">>=", "&=", "|=", "^="].contains sign then
    some (String.ofList sign.toList.dropLast)
  else none

/-- The number that a variable holds; one without a value holds zero. -/
def valueOf (name : String) : Working Int64 := do
  let text := ((← get).value? name).getD ""
  match wordValue? .marked text with
  | some n => return n
  | none => throw (.badValue text)

/-- Sets a variable. -/
def setValue (name : String) (n : Int64) : Working Unit := do
  let s ← get
  if s.isFixed name then throw (.fixed name) else set (s.assign name (toString n.toInt))

/-! ## Values -/

/-- Puts a number together with what follows it in its rank. Nothing is worked out where `idle`
says so; `operand` gives the value of an operand of the next rank. -/
def chain (idle : Bool) (rank : List String)
    (operand : List Token → Working (Int64 × List Token)) :
    Nat → Int64 → List Token → Working (Int64 × List Token)
  | 0, a, ts => return (a, ts)
  | fuel + 1, a, ts =>
    match ts with
    | .sign s :: rest =>
      if rank.contains s then do
        let (b, rest) ← operand rest
        let c ← if idle then pure b else (combine s a b : Except Fault Int64)
        chain idle rank operand fuel c rest
      else return (a, ts)
    | _ => return (a, ts)

/-- The value of operands of these ranks at the head of tokens, with the tokens after them. -/
def ranked (idle : Bool) (fuel : Nat) (operand : List Token → Working (Int64 × List Token)) :
    List (List String) → List Token → Working (Int64 × List Token)
  | [], ts => operand ts
  | rank :: inner, ts => do
    let (a, ts) ← ranked idle fuel operand inner ts
    chain idle rank (ranked idle fuel operand inner) fuel a ts

/-- The value of one operand; `whole` gives that of a sum in brackets. -/
def operand (idle : Bool) (whole : List Token → Working (Int64 × List Token)) :
    Nat → List Token → Working (Int64 × List Token)
  | 0, _ => throw .noOperand
  | fuel + 1, ts =>
    match ts with
    | .number n :: ts => return (n, ts)
    | .name s :: ts => do return (← if idle then pure 0 else valueOf s, ts)
    | .sign "(" :: ts => do
      match ← whole ts with
      | (a, .sign ")" :: ts) => return (a, ts)
      | _ => throw .noClosing
    | .sign "+" :: ts => operand idle whole fuel ts
    | .sign "-" :: ts => do
      let (a, ts) ← operand idle whole fuel ts
      return (-a, ts)
    | .sign "!" :: ts => do
      let (a, ts) ← operand idle whole fuel ts
      return (ofTruth (a == 0), ts)
    | .sign "~" :: ts => do
      let (a, ts) ← operand idle whole fuel ts
      return (~~~a, ts)
    | _ => throw .noOperand

/-- The value of operands that are linked by a sign of truth; once the truth is known the others are
only read. -/
def linked (sign : String) (settled : Bool)
    (part : Bool → List Token → Working (Int64 × List Token)) :
    Nat → Bool → List Token → Working (Int64 × List Token)
  | 0, _, _ => throw .noOperand
  | fuel + 1, idle, ts => do
    let (a, ts) ← part idle ts
    match ts with
    | .sign s :: rest =>
      if s = sign then do
        let (b, rest) ← linked sign settled part fuel (idle || (a != 0) == settled) rest
        let truth := if settled then a != 0 || b != 0 else a != 0 && b != 0
        return (ofTruth truth, rest)
      else return (a, ts)
    | _ => return (a, ts)

mutual

/-- The value of a sum that may be a choice. -/
def choice : Nat → Bool → List Token → Working (Int64 × List Token)
  | 0, _, _ => throw .noOperand
  | fuel + 1, idle, ts => do
    let whole (idle : Bool) (ts : List Token) := assignment fuel idle ts
    let part (idle : Bool) (ts : List Token) :=
      ranked idle ts.length (operand idle (whole idle) (ts.length + 1)) ranks ts
    let both (idle : Bool) (ts : List Token) := linked "&&" false part (ts.length + 1) idle ts
    let (a, ts) ← linked "||" true both (ts.length + 1) idle ts
    match ts with
    | .sign "?" :: rest =>
      let (b, rest) ← assignment fuel (idle || a == 0) rest
      match rest with
      | .sign ":" :: rest =>
        let (c, rest) ← choice fuel (idle || a != 0) rest
        return (if a != 0 then b else c, rest)
      | _ => throw .noColon
    | ts => return (a, ts)

/-- The value of a sum, which a variable may be set to. -/
def assignment : Nat → Bool → List Token → Working (Int64 × List Token)
  | 0, _, _ => throw .noOperand
  | fuel + 1, idle, ts => do
    match ts with
    | .name name :: .sign s :: rest =>
      match assigned? s with
      | some op =>
        let (b, rest) ← assignment fuel idle rest
        if idle then return (b, rest)
        else
          let c ← if op = "" then pure b
            else (combine op (← valueOf name) b : Except Fault Int64)
          setValue name c
          return (c, rest)
      | none => choice fuel idle ts
    | ts => choice fuel idle ts

end

/-- The value of a sum. -/
def value (sum : String) : Working Int64 := do
  let ts := tokens sum.toList
  match ← assignment (2 * ts.length + 2) false ts with
  | (a, []) => return a
  | _ => throw .noEnd

end CoverageRun.Shell.Sum
