/-
Reading what a text spells. Every text that spells a datum is read as the tree of that datum, without
a fault anywhere in it, whatever blanks and escapes it has.
-/
import CoverageRun.Json.Record
import CoverageRun.Proofs.Json.Grammar
import CoverageRun.Proofs.Store.OrderedMap

namespace CoverageRun.Json

open Numeral

/-! ## Trees of data -/

/-- The tree of a number. -/
def Literal.node (l : Literal) : Node :=
  numberNode l.negative l.whole
    (if l.fraction = [] ∧ l.exponent = [] then none else some (l.fraction, l.power))

mutual

/-- The tree that a datum is read as. -/
def Datum.node : Datum → Node
  | .null => .null
  | .bool b => .bool b
  | .number l => l.node
  | .text s => .text s
  | .array items => .array (Datum.itemNodes items)
  | .object members => .object (Datum.memberNodes members)

def Datum.itemNodes : List Datum → Items
  | [] => .closed
  | d :: r => .item d.node (Datum.itemNodes r)

def Datum.memberNodes : List (String × Datum) → Members
  | [] => .closed
  | (k, d) :: r => .member k d.node (Datum.memberNodes r)

end

/-! ## Blanks -/

theorem skipBlanks_append {front cs : List Char} (h : Blanks front) :
    skipBlanks (front ++ cs) = skipBlanks cs :=
  List.dropWhile_append_of_pos h

theorem skipBlanks_cons {c : Char} {r : List Char} (h : isBlank c = false) :
    skipBlanks (c :: r) = c :: r := by
  simp [skipBlanks, h]

theorem Blanks.skip_nil {front : List Char} (h : Blanks front) : skipBlanks front = [] := by
  rw [← List.append_nil front, skipBlanks_append h]
  rfl

/-- A blank, written out. -/
theorem isBlank_iff {c : Char} :
    isBlank c = true ↔ c = ' ' ∨ c = '\n' ∨ c = '\t' ∨ c = '\r' := by
  simp [isBlank, or_assoc]

theorem isBlank_of_digit {c : Char} (hc : isDigit c = true) : isBlank c = false := by
  by_contra h
  rcases isBlank_iff.1 (by simpa using h) with rfl | rfl | rfl | rfl <;> exact absurd hc (by decide)

/-! ## Quoted texts -/

theorem not_isHalf_iff {u : Nat} :
    ¬ IsHalf u ↔ ¬ (0xDC00 ≤ u ∧ u ≤ 0xDFFF) ∧ ¬ (0xD800 ≤ u ∧ u ≤ 0xDBFF) := by
  unfold IsHalf
  omega

/-- What stands between quotes is read up to the quote behind it. -/
theorem Quotes.readQuoted {s body : List Char} (h : Quotes s body) (front rest : List Char) :
    readQuoted ⟨front, none, false⟩ (body ++ '"' :: rest) =
      .read (String.ofList (front.reverse ++ s)) rest := by
  induction h generalizing front with
  | nil => rw [List.nil_append, readQuoted.eq_2]; simp [Quoting.close, Quoting.settle]
  | plain hc hquote hslash _ ih =>
    rw [List.cons_append, readQuoted.eq_7 _ _ _ hquote (by simp [hslash]) (by simp [hslash])
      (by simp [hslash]) (by simp [hslash]), if_neg (Char.not_lt.2 hc)]
    simpa [Quoting.push, Quoting.settle] using ih (_ :: front)
  | @escape letter c s body hc _ ih =>
    have hletter : letter ≠ 'u' := by rintro rfl; cases hc
    rw [List.cons_append, List.cons_append, readQuoted.eq_5 _ _ _ (fun _ _ _ _ _ h => (hletter h).elim)
      hletter]
    simpa [hc, Quoting.push, Quoting.settle] using ih (_ :: front)
  | unit hu hhalf _ ih =>
    obtain ⟨hlow, hhigh⟩ := not_isHalf_iff.1 hhalf
    simp only [List.cons_append]
    rw [readQuoted.eq_3]
    simpa [hu, Quoting.pushUnit, hlow, hhigh, Quoting.push, Quoting.settle] using ih (_ :: front)
  | @pair _ _ _ _ _ _ _ _ high _ _ _ hhigh hlow hhigh' hlow' _ ih =>
    have hfirst : ¬ 0xDC00 ≤ high := fun h => absurd (h.trans hhigh'.2) (by decide)
    simp only [List.cons_append]
    rw [readQuoted.eq_3, hhigh]
    dsimp only
    rw [readQuoted.eq_3, hlow]
    simpa [Quoting.pushUnit, hfirst, hhigh', hlow', Quoting.settle] using ih (_ :: front)

/-! ## Numbers -/

/-- What may follow a number: a blank, a comma, or the end of an array, of an object or of the whole
text. -/
def Ends (rest : List Char) : Prop :=
  ∀ c, rest.head? = some c → isBlank c = true ∨ c = ',' ∨ c = ']' ∨ c = '}'

theorem ends_cons {c : Char} {r : List Char} (h : isBlank c = true ∨ c = ',' ∨ c = ']' ∨ c = '}') :
    Ends (c :: r) := by
  rintro _ ⟨⟩
  exact h

theorem Ends.of_blanks {front rest : List Char} (hfront : Blanks front) (hrest : Ends rest) :
    Ends (front ++ rest) := by
  cases front with
  | nil => exact hrest
  | cons c r => exact ends_cons (.inl (hfront c List.mem_cons_self))

/-- What follows a number does not continue it. -/
theorem Ends.head {rest : List Char} (h : Ends rest) {c : Char} (hc : rest.head? = some c) :
    isDigit c = false ∧ c ≠ '.' ∧ c ≠ 'e' ∧ c ≠ 'E' := by
  have hcases : c = ' ' ∨ c = '\n' ∨ c = '\t' ∨ c = '\r' ∨ c = ',' ∨ c = ']' ∨ c = '}' := by
    simpa only [isBlank_iff, or_assoc] using h c hc
  rcases hcases with rfl | rfl | rfl | rfl | rfl | rfl | rfl <;> decide

theorem Ends.takeDigits {digits rest : List Char} (hdigits : ∀ c ∈ digits, isDigit c = true)
    (hrest : Ends rest) : Decimal.takeDigits (digits ++ rest) = (digits, rest) :=
  Decimal.takeDigits_append hdigits fun _ hc => (hrest.head hc).1

/-- The exponent after its mark. -/
theorem readExponent_of_writes {mark : Char} {r rest : List Char} {power : Int}
    (h : Decimal.WritesExponent (mark :: r) power) (hrest : Ends rest) (negative : Bool)
    (whole fraction : List Char) :
    readExponent negative whole fraction (r ++ rest) =
      (numberNode negative whole (some (fraction, power)), some rest) := by
  cases h with
  | plain _ hdigits =>
    obtain ⟨c, r', rfl, hc⟩ := hdigits.exists_cons
    have hsign : Decimal.takeSign (c :: r' ++ rest) = (false, c :: r' ++ rest) :=
      Decimal.takeSign_of_head (.inl hc)
    rw [readExponent, hsign]
    dsimp only
    rw [hrest.takeDigits hdigits.2]
    simp
  | plus _ hdigits =>
    simp [readExponent, Decimal.takeSign, hrest.takeDigits hdigits.2, hdigits.1]
  | minus _ hdigits =>
    simp [readExponent, Decimal.takeSign, hrest.takeDigits hdigits.2, hdigits.1]

namespace Literal

/-- What does not follow a number is no part of what it has behind its whole digits. -/
theorem head_tail (l : Literal) {rest : List Char} (hrest : Ends rest) {c : Char}
    (hc : (l.tail ++ rest).head? = some c) : isDigit c = false := by
  obtain ⟨negative, whole, fraction, exponent, power, _, _, _, hwrites⟩ := l
  unfold tail at hc
  dsimp only at hc
  by_cases hf : fraction = []
  · rw [if_pos hf] at hc
    cases exponent with
    | nil => exact (hrest.head hc).1
    | cons mark r => cases hc; rcases hwrites.head rfl with rfl | rfl <;> decide
  · rw [if_neg hf] at hc
    cases hc
    decide

/-- What follows the whole part of a number. -/
theorem readFraction_tail (l : Literal) {rest : List Char} (hrest : Ends rest) :
    readFraction l.negative l.whole (l.tail ++ rest) = (l.node, some rest) := by
  unfold node tail
  obtain ⟨negative, whole, fraction, exponent, power, -, -, hfraction, hwrites⟩ := l
  dsimp only
  by_cases hf : fraction = []
  · subst hf
    rw [if_pos rfl, List.nil_append]
    cases exponent with
    | nil =>
      rw [List.nil_append, if_pos ⟨rfl, rfl⟩]
      exact readFraction.eq_4 _ _ _ (fun r h => (hrest.head (by rw [h]; rfl)).2.1 rfl)
        (fun r h => (hrest.head (by rw [h]; rfl)).2.2.1 rfl)
        (fun r h => (hrest.head (by rw [h]; rfl)).2.2.2 rfl)
    | cons mark r =>
      rw [if_neg (by simp), List.cons_append]
      rcases hwrites.head rfl with rfl | rfl
      · exact (readFraction.eq_2 ..).trans (readExponent_of_writes hwrites hrest _ _ _)
      · exact (readFraction.eq_3 ..).trans (readExponent_of_writes hwrites hrest _ _ _)
  · have hmark : ∀ c, (exponent ++ rest).head? = some c → isDigit c = false := by
      cases exponent with
      | nil => exact fun c hc => (hrest.head hc).1
      | cons mark r => rintro c ⟨⟩; rcases hwrites.head rfl with rfl | rfl <;> decide
    rw [if_neg hf, if_neg (by simp [hf]), List.cons_append, List.cons_append, List.append_assoc,
      readFraction.eq_1, Decimal.takeDigits_append hfraction hmark]
    dsimp only
    rw [if_neg hf]
    cases exponent with
    | nil =>
      cases hwrites
      rw [List.nil_append]
      split
      · exact absurd rfl (hrest.head rfl).2.2.1
      · exact absurd rfl (hrest.head rfl).2.2.2
      · rfl
    | cons mark r =>
      rcases hwrites.head rfl with rfl | rfl <;>
        exact readExponent_of_writes hwrites hrest _ _ _

/-- A number after its sign. -/
theorem readNumber_append (l : Literal) {rest : List Char} (hrest : Ends rest) :
    readNumber l.negative (l.whole ++ (l.tail ++ rest)) = (l.node, some rest) := by
  rw [readNumber, Decimal.takeDigits_append l.whole_digits.2 fun c => l.head_tail hrest]
  dsimp only
  split
  · rename_i h
    exact absurd h l.whole_digits.1
  · rename_i h
    rcases l.no_zero with hz | hz <;> simp [h] at hz
  · exact l.readFraction_tail hrest

end Literal

/-! ## Values -/

theorem readNode_blanks {front cs : List Char} (h : Blanks front) (fuel : Nat) :
    readNode fuel (front ++ cs) = readNode fuel cs := by
  cases fuel with
  | zero => rfl
  | succ fuel => rw [readNode.eq_2, readNode.eq_2, skipBlanks_append h]

theorem readNode_digit {c : Char} (hc : isDigit c = true) (r : List Char) (fuel : Nat) :
    readNode (fuel + 1) (c :: r) = readNumber false (c :: r) := by
  rw [readNode.eq_2, skipBlanks_cons (isBlank_of_digit hc)]
  split
  case h_1 h => cases h
  case h_9 h => cases h; rw [if_pos hc]
  all_goals rename_i h; cases h; exact absurd hc (by decide)

theorem readNode_quote (cs : List Char) (fuel : Nat) :
    readNode (fuel + 1) ('"' :: cs) =
      match readQuoted ⟨[], none, false⟩ cs with
      | .read s rest => (.text s, some rest)
      | .unreadable rest => (.unreadable, some rest)
      | .broken read skipped => (.broken read read skipped, none) := rfl

theorem readNode_bracket (cs : List Char) (fuel : Nat) :
    readNode (fuel + 1) ('[' :: cs) =
      (.array (readItems fuel true cs).1, (readItems fuel true cs).2) := rfl

theorem readNode_brace (cs : List Char) (fuel : Nat) :
    readNode (fuel + 1) ('{' :: cs) =
      (.object (readMembers fuel true cs).1, (readMembers fuel true cs).2) := rfl

/-- A number is read up to what follows it. -/
theorem Literal.readNode_chars (l : Literal) {rest : List Char} (hrest : Ends rest) (fuel : Nat) :
    readNode (fuel + 1) (l.chars ++ rest) = (l.node, some rest) := by
  have hnumber := l.readNumber_append hrest
  unfold chars
  rw [List.append_assoc, List.append_assoc]
  cases hneg : l.negative with
  | true =>
    rw [hneg] at hnumber
    exact hnumber
  | false =>
    obtain ⟨c, r, hwhole, hc⟩ := l.whole_digits.exists_cons
    rw [hneg, hwhole] at hnumber
    rw [hwhole]
    exact (readNode_digit hc _ fuel).trans hnumber

/-- A value begins with a character that is no blank and no end. -/
theorem Spells.exists_cons {d : Datum} {cs : List Char} (h : Spells d cs) :
    ∃ c r, cs = c :: r ∧ isBlank c = false ∧ c ≠ ']' := by
  cases h with
  | null => exact ⟨_, _, rfl, by decide, by decide⟩
  | bool b => cases b <;> exact ⟨_, _, rfl, by decide, by decide⟩
  | text => exact ⟨_, _, rfl, by decide, by decide⟩
  | array => exact ⟨_, _, rfl, by decide, by decide⟩
  | object => exact ⟨_, _, rfl, by decide, by decide⟩
  | number l =>
    unfold Literal.chars
    split_ifs
    · exact ⟨'-', _, rfl, by decide, by decide⟩
    · obtain ⟨c, r, hwhole, hc⟩ := l.whole_digits.exists_cons
      rw [hwhole]
      exact ⟨c, _, rfl, isBlank_of_digit hc, by rintro rfl; exact absurd hc (by decide)⟩

theorem readItems_blanks {front cs : List Char} (h : Blanks front) (first : Bool) (fuel : Nat) :
    readItems fuel first (front ++ cs) = readItems fuel first cs := by
  cases fuel with
  | zero => rfl
  | succ fuel => rw [readItems.eq_2, readItems.eq_2, skipBlanks_append h]

/-- The first item of an array. -/
theorem readItems_first {c : Char} (hc : isBlank c = false) (hend : c ≠ ']') (r : List Char)
    (fuel : Nat) : readItems (fuel + 1) true (c :: r) = readItem fuel (c :: r) := by
  rw [readItems.eq_2, skipBlanks_cons hc]
  split
  case h_1 h => cases h
  case h_2 h => cases h; exact absurd rfl hend
  case h_3 h => cases h; rfl

/-- An item of an array behind another one. -/
theorem readItems_next {between : List Char} (hbetween : Blanks between) {c : Char}
    (hc : isBlank c = false) (hend : c ≠ ']') (r : List Char) (fuel : Nat) :
    readItems (fuel + 1) false (',' :: (between ++ c :: r)) = readItem fuel (c :: r) := by
  rw [readItems.eq_2, skipBlanks_cons (by decide)]
  split
  case h_1 h => cases h
  case h_2 h => cases h
  case h_3 h =>
    cases h
    rw [if_neg (by decide), if_pos rfl, skipBlanks_append hbetween, skipBlanks_cons hc]
    split
    case h_1 h => cases h
    case h_2 h => cases h; exact absurd rfl hend
    case h_3 => rfl

/-- The first member of an object. -/
theorem readMembers_first (cs : List Char) (fuel : Nat) :
    readMembers (fuel + 1) true ('"' :: cs) = readMember fuel cs := rfl

theorem readMembers_blanks {front cs : List Char} (h : Blanks front) (first : Bool) (fuel : Nat) :
    readMembers fuel first (front ++ cs) = readMembers fuel first cs := by
  cases fuel with
  | zero => rfl
  | succ fuel => rw [readMembers.eq_2, readMembers.eq_2, skipBlanks_append h]

/-- A member of an object behind another one. -/
theorem readMembers_next {between : List Char} (hbetween : Blanks between) (cs : List Char)
    (fuel : Nat) :
    readMembers (fuel + 1) false (',' :: (between ++ '"' :: cs)) = readMember fuel cs := by
  rw [readMembers.eq_2, skipBlanks_cons (by decide)]
  split
  case h_1 h => cases h
  case h_2 h => cases h
  case h_3 h => cases h
  case h_4 h =>
    cases h
    rw [if_neg (by decide), if_pos rfl, skipBlanks_append hbetween]
    rfl

/-- The value of a member behind its colon. -/
theorem readMemberValue_colon {before : List Char} (h : Blanks before) (cs : List Char) (fuel : Nat) :
    readMemberValue (fuel + 1) (before ++ ':' :: cs) =
      match readNode fuel cs with
      | (v, none) => (v, .closed, none)
      | (v, some rest) => (v, readMembers fuel false rest) := by
  rw [readMemberValue.eq_2, skipBlanks_append h]
  rfl

/-- What remains of an array ends a number. -/
theorem SpellsItems.ends {items : List Datum} {cs : List Char} (h : SpellsItems false items cs)
    (rest : List Char) : Ends (cs ++ rest) := by
  cases h with
  | close hbefore =>
    rw [List.append_assoc]
    exact .of_blanks hbefore (ends_cons (by decide))
  | next hbefore =>
    rw [List.append_assoc]
    exact .of_blanks hbefore (ends_cons (by decide))

/-- What remains of an object ends a number. -/
theorem SpellsMembers.ends {members : List (String × Datum)} {cs : List Char}
    (h : SpellsMembers false members cs) (rest : List Char) : Ends (cs ++ rest) := by
  cases h with
  | close hbefore =>
    rw [List.append_assoc]
    exact .of_blanks hbefore (ends_cons (by decide))
  | next hbefore =>
    rw [List.append_assoc]
    exact .of_blanks hbefore (ends_cons (by decide))

theorem Spells.length_pos {d : Datum} {cs : List Char} (h : Spells d cs) : 0 < cs.length := by
  obtain ⟨c, r, rfl, -⟩ := h.exists_cons
  exact Nat.succ_pos _

theorem SpellsItems.length_pos {first : Bool} {items : List Datum} {cs : List Char}
    (h : SpellsItems first items cs) : 0 < cs.length := by
  cases h with
  | close => simp
  | first _ hv => simp [hv.length_pos]
  | next => simp

theorem SpellsMembers.length_pos {first : Bool} {members : List (String × Datum)} {cs : List Char}
    (h : SpellsMembers first members cs) : 0 < cs.length := by
  cases h with
  | close => simp
  | first _ hm => cases hm; simp
  | next => simp

-- By induction on how the text is spelled. Each character pays for three steps of reading: an item
-- takes two besides those of its value, a member three.
mutual

/-- A value is read up to what follows it. -/
theorem Spells.readNode {d : Datum} {cs : List Char} (h : Spells d cs) {rest : List Char}
    (hrest : Ends rest) {fuel : Nat} (hfuel : 3 * cs.length ≤ fuel) :
    readNode fuel (cs ++ rest) = (d.node, some rest) := by
  obtain ⟨fuel, rfl⟩ : ∃ n, fuel = n + 1 := ⟨fuel - 1, by have := h.length_pos; omega⟩
  match h with
  | .null => rfl
  | .bool b => cases b <;> rfl
  | .number l => exact l.readNode_chars hrest fuel
  | .text hs =>
    rw [List.cons_append, List.append_assoc, List.singleton_append, readNode_quote,
      hs.readQuoted [] rest]
    simp [Datum.node]
  | .array hitems =>
    rw [List.length_cons] at hfuel
    rw [List.cons_append, readNode_bracket, hitems.readItems rest (by omega)]
    rfl
  | .object hmembers =>
    rw [List.length_cons] at hfuel
    rw [List.cons_append, readNode_brace, hmembers.readMembers rest (by omega)]
    rfl

/-- What remains of an array is read. -/
theorem SpellsItems.readItems {first : Bool} {items : List Datum} {cs : List Char}
    (h : SpellsItems first items cs) (rest : List Char) {fuel : Nat} (hfuel : 3 * cs.length ≤ fuel) :
    readItems fuel first (cs ++ rest) = (Datum.itemNodes items, some rest) := by
  obtain ⟨fuel, rfl⟩ : ∃ n, fuel = n + 2 := ⟨fuel - 2, by have := h.length_pos; omega⟩
  match h with
  | .close hbefore =>
    rw [List.append_assoc, readItems_blanks hbefore]
    rfl
  | .first hbefore hv hitems =>
    have hpos := hitems.length_pos
    simp only [List.length_append] at hfuel
    have hvalue := hv.readNode (hitems.ends rest) (show 3 * _ ≤ fuel by omega)
    obtain ⟨c, r, rfl, hc, hend⟩ := hv.exists_cons
    rw [List.length_cons] at hfuel
    rw [List.append_assoc, readItems_blanks hbefore, List.append_assoc, List.cons_append,
      readItems_first hc hend, readItem.eq_2, ← List.cons_append, hvalue]
    dsimp only
    rw [hitems.readItems rest (by omega)]
    rfl
  | .next hbefore hbetween hv hitems =>
    have hpos := hitems.length_pos
    simp only [List.length_append, List.length_cons] at hfuel
    have hvalue := hv.readNode (hitems.ends rest) (show 3 * _ ≤ fuel by omega)
    obtain ⟨c, r, rfl, hc, hend⟩ := hv.exists_cons
    rw [List.length_cons] at hfuel
    rw [List.append_assoc, readItems_blanks hbefore, List.cons_append, List.append_assoc,
      List.append_assoc, List.cons_append, readItems_next hbetween hc hend, readItem.eq_2,
      ← List.cons_append, hvalue]
    dsimp only
    rw [hitems.readItems rest (by omega)]
    rfl

/-- What remains of an object is read. -/
theorem SpellsMembers.readMembers {first : Bool} {members : List (String × Datum)} {cs : List Char}
    (h : SpellsMembers first members cs) (rest : List Char) {fuel : Nat}
    (hfuel : 3 * cs.length ≤ fuel) :
    readMembers fuel first (cs ++ rest) = (Datum.memberNodes members, some rest) := by
  obtain ⟨fuel, rfl⟩ : ∃ n, fuel = n + 3 := ⟨fuel - 3, by have := h.length_pos; omega⟩
  match h with
  | .close hbefore =>
    rw [List.append_assoc, readMembers_blanks hbefore]
    rfl
  | .first hbefore hm hmembers =>
    obtain ⟨tail, rfl, hlength, hmember⟩ := hm.readMember
    have hpos := hmembers.length_pos
    simp only [List.length_append] at hfuel
    have hrest := hmembers.readMembers rest (show 3 * _ ≤ fuel by omega)
    rw [List.append_assoc, readMembers_blanks hbefore, List.append_assoc, List.cons_append,
      readMembers_first, hmember (hmembers.ends rest) (by omega) hrest]
    rfl
  | .next hbefore hbetween hm hmembers =>
    obtain ⟨tail, rfl, hlength, hmember⟩ := hm.readMember
    have hpos := hmembers.length_pos
    simp only [List.length_append, List.length_cons] at hfuel hlength
    have hrest := hmembers.readMembers rest (show 3 * _ ≤ fuel by omega)
    rw [List.append_assoc, readMembers_blanks hbefore, List.cons_append, List.append_assoc,
      List.append_assoc, List.cons_append, readMembers_next hbetween,
      hmember (hmembers.ends rest) (by rw [List.length_cons]; omega) hrest]
    rfl

/-- A member is read, and those after it are. -/
theorem SpellsMember.readMember {k : String} {v : Datum} {cs : List Char}
    (h : SpellsMember k v cs) :
    ∃ tail, cs = '"' :: tail ∧ 4 ≤ cs.length ∧
      ∀ {rest : List Char} {members : Members} {rest' : Option (List Char)} {fuel : Nat},
        Ends rest → 3 * cs.length ≤ fuel + 9 → readMembers fuel false rest = (members, rest') →
          readMember (fuel + 2) (tail ++ rest) = (.member k v.node members, rest') := by
  match h with
  | .mk hk hbefore hafter hv =>
    refine ⟨_, rfl, ?_, ?_⟩
    · have hpos := hv.length_pos
      simp only [List.length_append, List.length_cons]
      omega
    intro rest members rest' fuel hrest hfuel hmembers
    simp only [List.length_append, List.length_cons] at hfuel
    have hvalue := hv.readNode hrest (show 3 * _ ≤ fuel by omega)
    rw [List.append_assoc, List.cons_append, readMember.eq_2, hk.readQuoted []]
    simp only [List.append_assoc, List.cons_append] at hvalue ⊢
    simp only [readMemberValue_colon hbefore, readNode_blanks hafter, hvalue, hmembers,
      List.reverse_nil, List.nil_append, String.ofList_toList]

end

/-! ## Whole texts -/

/-- A text that spells a datum is read as the tree of that datum. -/
theorem Datum.SpelledBy.read {d : Datum} {text : String} (h : d.SpelledBy text) :
    Document.read text = ⟨d.node, false⟩ := by
  obtain ⟨before, cs, after, htext, hbefore, hafter, hd⟩ := h
  have hlength : cs.length ≤ text.length := by
    rw [← String.length_toList, htext]
    simp only [List.length_append]
    omega
  have hends : Ends after := by
    rw [← List.append_nil after]
    exact .of_blanks hafter nofun
  rw [Document.read, htext, readNode_blanks hbefore, hd.readNode hends (by omega)]
  simp [hafter.skip_nil]

/-- Reading a text that spells a datum is reading the tree of that datum. -/
theorem readDocument_of_spelledBy {α : Type} {d : Datum} {text : String} (h : d.SpelledBy text)
    (read : Node → Reading α) : readDocument read text = read d.node := by
  rw [readDocument, h.read]
  cases hread : read d.node <;> rfl

end CoverageRun.Json
