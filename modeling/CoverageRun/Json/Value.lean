/-
JSON values and their texts: on one line without blanks, or indented by two spaces.
-/
import CoverageRun.Numeral.Whole
import CoverageRun.Text.Octets

namespace CoverageRun.Json

open Numeral

/-- A JSON value with whole numbers only. Members stand in the order they are written. -/
inductive Value where
  | null
  | bool (b : Bool)
  | integer (i : Int)
  | text (s : String)
  | array (items : List Value)
  | object (members : List (String × Value))
  deriving Repr, Inhabited

namespace Value

/-! ## Making values -/

/-- A list of texts. -/
def texts (ss : List String) : Value := .array (ss.map .text)

/-- A whole number of 64 bits. -/
def word (n : UInt64) : Value := .integer n.toNat

/-- A whole number. -/
def nat (n : Nat) : Value := .integer n

/-- A value, or null where there is none. -/
def optional {α : Type} (write : α → Value) : Option α → Value
  | some a => write a
  | none => .null

/-! ## Quoting -/

/-- The letter that names a character behind a backslash. -/
def escapeLetter? (c : Char) : Option Char :=
  match c with
  | '"' | '\\' => some c
  | '\n' => some 'n'
  | '\r' => some 'r'
  | '\t' => some 't'
  | '\x08' => some 'b'
  | '\x0c' => some 'f'
  | _ => none

/-- A character as it stands between quotes. -/
def quoteChar (c : Char) : List Char :=
  match escapeLetter? c with
  | some letter => ['\\', letter]
  | none => if c < ' ' then ['\\', 'u'] ++ Text.hexDigits 4 c.toNat else [c]

/-- A text between quotes. -/
def quote (s : String) : List Char := '"' :: (s.toList.flatMap quoteChar ++ ['"'])

/-! ## One line -/

mutual

/-- The text of a value, without blanks. -/
def compactChars : Value → List Char
  | .null => "null".toList
  | .bool b => (if b then "true" else "false").toList
  | .integer i => (writeInt i).toList
  | .text s => quote s
  | .array items => '[' :: (compactItems items ++ [']'])
  | .object members => '{' :: (compactMembers members ++ ['}'])

def compactItems : List Value → List Char
  | [] => []
  | [v] => compactChars v
  | v :: w :: r => compactChars v ++ ',' :: compactItems (w :: r)

def compactMembers : List (String × Value) → List Char
  | [] => []
  | [(k, v)] => quote k ++ ':' :: compactChars v
  | (k, v) :: m :: r => quote k ++ ':' :: (compactChars v ++ ',' :: compactMembers (m :: r))

end

/-- The text of a value, without blanks. -/
def compact (v : Value) : String := String.ofList v.compactChars

/-! ## Indented -/

/-- A line feed and the indentation of a depth. -/
def indent (depth : Nat) : List Char := '\n' :: List.replicate (2 * depth) ' '

mutual

/-- The text of a value at a depth, each item and member on a line of its own. -/
def prettyChars (depth : Nat) : Value → List Char
  | .null => "null".toList
  | .bool b => (if b then "true" else "false").toList
  | .integer i => (writeInt i).toList
  | .text s => quote s
  | .array [] => ['[', ']']
  | .array (v :: r) =>
    '[' :: (indent (depth + 1) ++ prettyItems (depth + 1) (v :: r) ++ indent depth ++ [']'])
  | .object [] => ['{', '}']
  | .object (m :: r) =>
    '{' :: (indent (depth + 1) ++ prettyMembers (depth + 1) (m :: r) ++ indent depth ++ ['}'])

def prettyItems (depth : Nat) : List Value → List Char
  | [] => []
  | [v] => prettyChars depth v
  | v :: w :: r => prettyChars depth v ++ ',' :: (indent depth ++ prettyItems depth (w :: r))

def prettyMembers (depth : Nat) : List (String × Value) → List Char
  | [] => []
  | [(k, v)] => quote k ++ [':', ' '] ++ prettyChars depth v
  | (k, v) :: m :: r =>
    quote k ++ [':', ' '] ++ prettyChars depth v ++ ',' ::
      (indent depth ++ prettyMembers depth (m :: r))

end

/-- The text of a value, indented. -/
def pretty (v : Value) : String := String.ofList (v.prettyChars 0)

end Value

end CoverageRun.Json
