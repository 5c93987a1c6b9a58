/-
Writing spells what is written: both texts of a value, on one line and indented, spell its datum.
-/
import CoverageRun.Proofs.Json.Grammar
import CoverageRun.Proofs.Text.Octets

namespace CoverageRun.Json

open Numeral Text

/-! ## Quoted texts -/

/-- A unit of sixteen bits is read back from its digits. -/
theorem unit?_hexDigits {n : Nat} (h : n < 0x10000) :
    ∃ a b c d, hexDigits 4 n = [a, b, c, d] ∧ unit? a b c d = some n := by
  refine ⟨_, _, _, _, rfl, ?_⟩
  simp only [unit?, hexValue?_hexDigit _ (Nat.mod_lt _ (by decide : 0 < 16)), Option.bind_eq_bind,
    Option.bind_some, Option.pure_def, Option.some.injEq]
  norm_num [Nat.pow_eq]
  omega

namespace Value

theorem escaped?_letter {c letter : Char} (h : escapeLetter? c = some letter) :
    escaped? letter = some c := by
  unfold escapeLetter? at h
  split at h <;> cases h <;> rfl

/-- A character without a letter of its own is no quote and no backslash. -/
theorem ne_of_escapeLetter? {c : Char} (h : escapeLetter? c = none) : c ≠ '"' ∧ c ≠ '\\' := by
  constructor <;> rintro rfl <;> cases h

/-- A character spells itself in front of what follows. -/
theorem quotes_quoteChar (c : Char) {s body : List Char} (h : Quotes s body) :
    Quotes (c :: s) (quoteChar c ++ body) := by
  unfold quoteChar
  split
  · rename_i letter hletter
    exact .escape (escaped?_letter hletter) h
  · rename_i hletter
    by_cases hc : c < ' '
    · have hlow : c.toNat < 32 := hc
      obtain ⟨a, b, c', d, hdigits, hunit⟩ := unit?_hexDigits (n := c.toNat) (by omega)
      rw [if_pos hc, hdigits]
      have hspelled := Quotes.unit hunit (by unfold IsHalf; omega) h
      rwa [Char.ofNat_toNat] at hspelled
    · rw [if_neg hc]
      obtain ⟨hquote, hslash⟩ := ne_of_escapeLetter? hletter
      exact .plain (Char.not_lt.1 hc) hquote hslash h

theorem quotes_flatMap : ∀ s : List Char, Quotes s (s.flatMap quoteChar)
  | [] => .nil
  | c :: s => quotes_quoteChar c (quotes_flatMap s)

theorem spells_quote (s : String) : Spells (.text s) (quote s) := .text (quotes_flatMap s.toList)

/-! ## Whole numbers -/

theorem spells_writeInt (i : Int) : Spells (.number (.ofInt i)) (writeInt i).toList := by
  have h : (Literal.ofInt i).chars = (writeInt i).toList := by
    unfold Literal.chars Literal.tail Literal.ofInt writeInt
    by_cases hi : i < 0 <;> simp [hi]
  exact h ▸ .number _

/-! ## Arrays and objects -/

theorem sizeOf_item_lt {v : Value} {items : List Value} (h : v ∈ items) :
    sizeOf v < sizeOf (array items) := by
  have := List.sizeOf_lt_of_mem h
  simp only [array.sizeOf_spec]
  omega

theorem sizeOf_member_lt {m : String × Value} {members : List (String × Value)} (h : m ∈ members) :
    sizeOf m.2 < sizeOf (object members) := by
  have := List.sizeOf_lt_of_mem h
  obtain ⟨k, v⟩ := m
  simp only [object.sizeOf_spec, Prod.mk.sizeOf_spec] at *
  omega

theorem blanks_nil : Blanks [] := List.forall_mem_nil _

variable {before between first : List Char}

/-- Items behind the first one, each behind a comma. -/
theorem spellsItems_flatMap (hbefore : Blanks before) (hbetween : Blanks between)
    {write : Value → List Char} : ∀ {items : List Value},
    (∀ v ∈ items, Spells v.datum (write v)) →
      SpellsItems false (items.map datum)
        (items.flatMap (fun v => ',' :: (between ++ write v)) ++ (before ++ [']']))
  | [], _ => .close hbefore
  | v :: r, h => by
    have hrest := spellsItems_flatMap hbefore hbetween fun w hw => h w (List.mem_cons_of_mem _ hw)
    simpa using SpellsItems.next blanks_nil hbetween (h v List.mem_cons_self) hrest

/-- Members behind the first one, each behind a comma. -/
theorem spellsMembers_flatMap (hbefore : Blanks before) (hbetween : Blanks between)
    {write : String × Value → List Char} : ∀ {members : List (String × Value)},
    (∀ m ∈ members, SpellsMember m.1 m.2.datum (write m)) →
      SpellsMembers false (members.map fun m => (m.1, m.2.datum))
        (members.flatMap (fun m => ',' :: (between ++ write m)) ++ (before ++ ['}']))
  | [], _ => .close hbefore
  | m :: r, h => by
    have hrest := spellsMembers_flatMap hbefore hbetween fun w hw => h w (List.mem_cons_of_mem _ hw)
    simpa using SpellsMembers.next blanks_nil hbetween (h m List.mem_cons_self) hrest

theorem spells_array (hfirst : Blanks first) (hbetween : Blanks between) (hbefore : Blanks before)
    {write : Value → List Char} {v : Value} {r : List Value}
    (h : ∀ w ∈ v :: r, Spells w.datum (write w)) :
    Spells (array (v :: r)).datum ('[' :: (first ++ (write v ++
      (r.flatMap (fun w => ',' :: (between ++ write w)) ++ (before ++ [']']))))) := by
  rw [datum, itemData_eq]
  exact .array (.first hfirst (h v List.mem_cons_self)
    (spellsItems_flatMap hbefore hbetween fun w hw => h w (List.mem_cons_of_mem _ hw)))

theorem spells_object (hfirst : Blanks first) (hbetween : Blanks between) (hbefore : Blanks before)
    {write : String × Value → List Char} {m : String × Value} {r : List (String × Value)}
    (h : ∀ w ∈ m :: r, SpellsMember w.1 w.2.datum (write w)) :
    Spells (object (m :: r)).datum ('{' :: (first ++ (write m ++
      (r.flatMap (fun w => ',' :: (between ++ write w)) ++ (before ++ ['}']))))) := by
  rw [datum, memberData_eq]
  exact .object (.first hfirst (h m List.mem_cons_self)
    (spellsMembers_flatMap hbefore hbetween fun w hw => h w (List.mem_cons_of_mem _ hw)))

/-! ## One line -/

/-- A member on one line. -/
def compactMember (m : String × Value) : List Char := quote m.1 ++ ':' :: compactChars m.2

theorem compactItems_cons (v : Value) : ∀ r : List Value,
    compactItems (v :: r) = compactChars v ++ r.flatMap fun w => ',' :: ([] ++ compactChars w)
  | [] => by simp [compactItems]
  | w :: r => by rw [compactItems, compactItems_cons w r]; simp

theorem compactMembers_cons (m : String × Value) : ∀ r : List (String × Value),
    compactMembers (m :: r) = compactMember m ++ r.flatMap fun w => ',' :: ([] ++ compactMember w)
  | [] => by simp [compactMembers, compactMember]
  | w :: r => by rw [compactMembers, compactMembers_cons w r]; simp [compactMember]

theorem spellsMember_compact {m : String × Value} (h : Spells m.2.datum m.2.compactChars) :
    SpellsMember m.1 m.2.datum (compactMember m) := by
  have hmember := SpellsMember.mk (quotes_flatMap m.1.toList) blanks_nil blanks_nil h
  simpa [compactMember, quote] using hmember

/-- The text of a value on one line spells its datum. -/
theorem spells_compactChars : ∀ v : Value, Spells v.datum v.compactChars
  | .null => .null
  | .bool b => .bool b
  | .integer i => spells_writeInt i
  | .text s => spells_quote s
  | .array [] => .array (.close blanks_nil)
  | .array (v :: r) => by
    rw [compactChars, compactItems_cons, List.append_assoc]
    exact spells_array blanks_nil blanks_nil blanks_nil fun w hw => spells_compactChars w
  | .object [] => .object (.close blanks_nil)
  | .object (m :: r) => by
    rw [compactChars, compactMembers_cons, List.append_assoc]
    exact spells_object blanks_nil blanks_nil blanks_nil fun w hw =>
      spellsMember_compact (spells_compactChars w.2)
decreasing_by
  · exact sizeOf_item_lt hw
  · exact sizeOf_member_lt hw

/-- The text of a value on one line spells its datum. -/
theorem spelledBy_compact (v : Value) : v.datum.SpelledBy v.compact :=
  ⟨[], _, [], by simp [compact], blanks_nil, blanks_nil, spells_compactChars v⟩

/-! ## Indented -/

/-- A member of an indented object. -/
def prettyMember (depth : Nat) (m : String × Value) : List Char :=
  quote m.1 ++ [':', ' '] ++ prettyChars depth m.2

theorem blanks_indent (depth : Nat) : Blanks (indent depth) := by
  intro c hc
  rcases List.mem_cons.1 hc with rfl | hc
  · rfl
  · rw [List.eq_of_mem_replicate hc]
    rfl

theorem blanks_space : Blanks [' '] := by simp [Blanks, isBlank]

theorem prettyItems_cons (depth : Nat) (v : Value) : ∀ r : List Value,
    prettyItems depth (v :: r) =
      prettyChars depth v ++ r.flatMap fun w => ',' :: (indent depth ++ prettyChars depth w)
  | [] => by simp [prettyItems]
  | w :: r => by rw [prettyItems, prettyItems_cons depth w r]; simp

theorem prettyMembers_cons (depth : Nat) (m : String × Value) : ∀ r : List (String × Value),
    prettyMembers depth (m :: r) =
      prettyMember depth m ++ r.flatMap fun w => ',' :: (indent depth ++ prettyMember depth w)
  | [] => by simp [prettyMembers, prettyMember]
  | w :: r => by rw [prettyMembers, prettyMembers_cons depth w r]; simp [prettyMember]

theorem spellsMember_pretty {m : String × Value} {depth : Nat}
    (h : Spells m.2.datum (m.2.prettyChars depth)) :
    SpellsMember m.1 m.2.datum (prettyMember depth m) := by
  have hmember := SpellsMember.mk (quotes_flatMap m.1.toList) blanks_nil blanks_space h
  simpa [prettyMember, quote] using hmember

/-- The indented text of a value spells its datum. -/
theorem spells_prettyChars : ∀ (v : Value) (depth : Nat), Spells v.datum (v.prettyChars depth)
  | .null, _ => .null
  | .bool b, _ => .bool b
  | .integer i, _ => spells_writeInt i
  | .text s, _ => spells_quote s
  | .array [], _ => .array (.close blanks_nil)
  | .array (v :: r), depth => by
    rw [prettyChars, prettyItems_cons, List.append_assoc, List.append_assoc, List.append_assoc]
    exact spells_array (blanks_indent _) (blanks_indent _) (blanks_indent _) fun w hw =>
      spells_prettyChars w (depth + 1)
  | .object [], _ => .object (.close blanks_nil)
  | .object (m :: r), depth => by
    rw [prettyChars, prettyMembers_cons, List.append_assoc, List.append_assoc, List.append_assoc]
    exact spells_object (blanks_indent _) (blanks_indent _) (blanks_indent _) fun w hw =>
      spellsMember_pretty (spells_prettyChars w.2 (depth + 1))
termination_by v => v
decreasing_by
  · exact sizeOf_item_lt hw
  · exact sizeOf_member_lt hw

/-- The indented text of a value spells its datum. -/
theorem spelledBy_pretty (v : Value) : v.datum.SpelledBy v.pretty :=
  ⟨[], _, [], by simp [pretty], blanks_nil, blanks_nil, spells_prettyChars v 0⟩

end Value

end CoverageRun.Json
