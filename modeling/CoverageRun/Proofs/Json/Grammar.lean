/-
The grammar of JSON. A datum is what a JSON text says: its numbers are kept as they are written. A
text spells a datum with blanks between its parts and with any of the escapes that a character has.
How texts are read is not said here.
-/
import CoverageRun.Json.Node
import CoverageRun.Json.Value
import CoverageRun.Proofs.Numeral.Decimal

namespace CoverageRun.Json

open Numeral

/-! ## Numbers -/

/-- A number as it is written: no zero before other digits, and digits behind the point if there is
one. Without digits behind a point there is no point. -/
structure Literal where
  negative : Bool
  whole : List Char
  fraction : List Char
  exponent : List Char
  /-- The value of the exponent. -/
  power : Int
  whole_digits : Digits whole
  no_zero : whole = ['0'] ∨ whole.head? ≠ some '0'
  fraction_digits : ∀ c ∈ fraction, isDigit c = true
  writes : Decimal.WritesExponent exponent power

namespace Literal

/-- What stands behind the whole part of a number. -/
def tail (l : Literal) : List Char :=
  (if l.fraction = [] then [] else '.' :: l.fraction) ++ l.exponent

/-- The text of a number. -/
def chars (l : Literal) : List Char :=
  (if l.negative then ['-'] else []) ++ (l.whole ++ l.tail)

/-- A whole number. -/
def ofInt (i : Int) : Literal where
  negative := decide (i < 0)
  whole := write i.natAbs
  fraction := []
  exponent := []
  power := 0
  whole_digits := ⟨write_ne_nil _, fun _ => isDigit_of_mem_write⟩
  no_zero := by
    by_cases hi : i.natAbs = 0
    · exact .inl (by rw [hi]; rfl)
    · exact .inr (head_write hi)
  fraction_digits := by simp
  writes := .absent

end Literal

/-! ## Data -/

/-- What a JSON text says. -/
inductive Datum where
  | null
  | bool (b : Bool)
  | number (l : Literal)
  | text (s : String)
  | array (items : List Datum)
  | object (members : List (String × Datum))

mutual

/-- The datum of a value. -/
def Value.datum : Value → Datum
  | .null => .null
  | .bool b => .bool b
  | .integer i => .number (.ofInt i)
  | .text s => .text s
  | .array items => .array (Value.itemData items)
  | .object members => .object (Value.memberData members)

def Value.itemData : List Value → List Datum
  | [] => []
  | v :: r => v.datum :: Value.itemData r

def Value.memberData : List (String × Value) → List (String × Datum)
  | [] => []
  | (k, v) :: r => (k, v.datum) :: Value.memberData r

end

theorem Value.itemData_eq : ∀ items : List Value, itemData items = items.map datum
  | [] => rfl
  | v :: r => by rw [itemData, itemData_eq r, List.map_cons]

theorem Value.memberData_eq : ∀ members : List (String × Value),
    memberData members = members.map fun m => (m.1, m.2.datum)
  | [] => rfl
  | (k, v) :: r => by rw [memberData, memberData_eq r, List.map_cons]

/-! ## Texts -/

/-- What may stand between the parts of a text. -/
def Blanks (cs : List Char) : Prop := ∀ c ∈ cs, isBlank c = true

/-- Half of a surrogate pair. -/
def IsHalf (u : Nat) : Prop := 0xD800 ≤ u ∧ u ≤ 0xDFFF

/-- Characters and how they stand between quotes: as they are, behind a backslash, or by one or two
units of sixteen bits. -/
inductive Quotes : List Char → List Char → Prop
  | nil : Quotes [] []
  | plain {c : Char} {s body : List Char} (hc : ' ' ≤ c) (hquote : c ≠ '"') (hslash : c ≠ '\\')
      (h : Quotes s body) : Quotes (c :: s) (c :: body)
  | escape {letter c : Char} {s body : List Char} (hc : escaped? letter = some c)
      (h : Quotes s body) : Quotes (c :: s) ('\\' :: letter :: body)
  | unit {a b c d : Char} {u : Nat} {s body : List Char} (hu : unit? a b c d = some u)
      (hhalf : ¬ IsHalf u) (h : Quotes s body) :
      Quotes (Char.ofNat u :: s) ('\\' :: 'u' :: a :: b :: c :: d :: body)
  | pair {a b c d a' b' c' d' : Char} {high low : Nat} {s body : List Char}
      (hhigh : unit? a b c d = some high) (hlow : unit? a' b' c' d' = some low)
      (hhigh' : 0xD800 ≤ high ∧ high ≤ 0xDBFF) (hlow' : 0xDC00 ≤ low ∧ low ≤ 0xDFFF)
      (h : Quotes s body) :
      Quotes (Char.ofNat (0x10000 + (high - 0xD800) * 0x400 + (low - 0xDC00)) :: s)
        ('\\' :: 'u' :: a :: b :: c :: d :: '\\' :: 'u' :: a' :: b' :: c' :: d' :: body)

mutual

/-- A text spells a datum, without blanks around it. -/
inductive Spells : Datum → List Char → Prop
  | null : Spells .null "null".toList
  | bool (b : Bool) : Spells (.bool b) (if b then "true" else "false").toList
  | number (l : Literal) : Spells (.number l) l.chars
  | text {s : String} {body : List Char} (h : Quotes s.toList body) :
      Spells (.text s) ('"' :: (body ++ ['"']))
  | array {items : List Datum} {cs : List Char} (h : SpellsItems true items cs) :
      Spells (.array items) ('[' :: cs)
  | object {members : List (String × Datum)} {cs : List Char} (h : SpellsMembers true members cs) :
      Spells (.object members) ('{' :: cs)

/-- The rest of an array, up to its end: from its first item on, or from behind an item. -/
inductive SpellsItems : Bool → List Datum → List Char → Prop
  | close {first : Bool} {before : List Char} (hbefore : Blanks before) :
      SpellsItems first [] (before ++ [']'])
  | first {before cs rest : List Char} {v : Datum} {items : List Datum} (hbefore : Blanks before)
      (hv : Spells v cs) (hrest : SpellsItems false items rest) :
      SpellsItems true (v :: items) (before ++ (cs ++ rest))
  | next {before between cs rest : List Char} {v : Datum} {items : List Datum}
      (hbefore : Blanks before) (hbetween : Blanks between) (hv : Spells v cs)
      (hrest : SpellsItems false items rest) :
      SpellsItems false (v :: items) (before ++ ',' :: (between ++ (cs ++ rest)))

/-- The rest of an object, up to its end: from its first member on, or from behind a member. -/
inductive SpellsMembers : Bool → List (String × Datum) → List Char → Prop
  | close {first : Bool} {before : List Char} (hbefore : Blanks before) :
      SpellsMembers first [] (before ++ ['}'])
  | first {before cs rest : List Char} {k : String} {v : Datum} {members : List (String × Datum)}
      (hbefore : Blanks before) (hm : SpellsMember k v cs)
      (hrest : SpellsMembers false members rest) :
      SpellsMembers true ((k, v) :: members) (before ++ (cs ++ rest))
  | next {before between cs rest : List Char} {k : String} {v : Datum}
      {members : List (String × Datum)} (hbefore : Blanks before) (hbetween : Blanks between)
      (hm : SpellsMember k v cs) (hrest : SpellsMembers false members rest) :
      SpellsMembers false ((k, v) :: members) (before ++ ',' :: (between ++ (cs ++ rest)))

/-- A member: its key in quotes, a colon and its value. -/
inductive SpellsMember : String → Datum → List Char → Prop
  | mk {k : String} {v : Datum} {body before after cs : List Char} (hk : Quotes k.toList body)
      (hbefore : Blanks before) (hafter : Blanks after) (hv : Spells v cs) :
      SpellsMember k v ('"' :: (body ++ '"' :: (before ++ ':' :: (after ++ cs))))

end

/-- A whole text: a datum with blanks around it. -/
def Datum.SpelledBy (d : Datum) (text : String) : Prop :=
  ∃ before cs after, text.toList = before ++ (cs ++ after) ∧ Blanks before ∧ Blanks after ∧ Spells d cs

end CoverageRun.Json
