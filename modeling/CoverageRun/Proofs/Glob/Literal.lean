/-
Patterns of literal characters. A mark stands where a match may have come to; passing octets moves
every mark behind them, where the text has them. So a pattern of literal characters matches the
text they spell and no other, and every text is spelled by a pattern: its characters, each escaped.
-/
import CoverageRun.Glob.Match
import CoverageRun.Proofs.Text.Octets
import Mathlib.Data.List.Basic

namespace CoverageRun.Glob

open Text

/-! ## Marks -/

namespace Marks

/-- Whether a match may have come to a place. -/
def reaches (marks : Marks) (i : Nat) : Bool := marks[i]?.getD false

theorem reaches_start (text : List UInt8) (i : Nat) : (start text).reaches i = decide (i = 0) := by
  unfold start reaches
  cases i with
  | zero => rfl
  | succ i =>
    rw [List.getElem?_cons_succ, List.getElem?_map]
    cases text[i]? <;> rfl

theorem reaches_advance_succ (test : UInt8 → Bool) (text : List UInt8) (marks : Marks) (i : Nat) :
    (advance test text marks).reaches (i + 1) = (marks.reaches i && text[i]?.any test) := by
  unfold advance reaches
  rw [List.getElem?_cons_succ, List.getElem?_zipWith]
  cases marks[i]? <;> cases text[i]? <;> simp

/-- There is a mark before each octet and one at the end. -/
def Fit (text : List UInt8) (marks : Marks) : Prop := marks.length = text.length + 1

theorem fit_start (text : List UInt8) : Fit text (start text) := by simp [Fit, start]

theorem Fit.advance {text : List UInt8} {marks : Marks} (h : Fit text marks)
    (test : UInt8 → Bool) : Fit text (advance test text marks) := by
  unfold Fit at *
  simp [Marks.advance, h]

theorem Fit.atEnd {text : List UInt8} {marks : Marks} (h : Fit text marks) :
    marks.atEnd = marks.reaches text.length := by
  unfold Marks.atEnd reaches
  rw [List.getLast?_eq_getElem?, h, Nat.add_sub_cancel]

end Marks

open Marks

/-! ## Octets in a row -/

theorem fit_passOctets {text : List UInt8} : ∀ (bytes : List UInt8) {marks : Marks},
    Fit text marks → Fit text (passOctets text marks bytes)
  | [], _, h => h
  | _ :: bytes, _, h => fit_passOctets bytes (h.advance _)

theorem cons_prefix_drop {text bytes : List UInt8} {b : UInt8} {j : Nat} :
    b :: bytes <+: text.drop j ↔ text[j]? = some b ∧ bytes <+: text.drop (j + 1) := by
  rw [List.drop_eq_getElem?_toList_append]
  cases hj : text[j]? with
  | none =>
    have : text.drop (j + 1) = [] := List.drop_eq_nil_of_le (by simp at hj; omega)
    simp [this]
  | some a => simp [List.cons_prefix_cons, eq_comm]

/-- Octets in a row lead behind themselves, from each mark that they follow in the text. -/
theorem reaches_passOctets {text : List UInt8} : ∀ (bytes : List UInt8) {marks : Marks} {i : Nat},
    (passOctets text marks bytes).reaches i = true ↔
      ∃ j, i = j + bytes.length ∧ marks.reaches j = true ∧ bytes <+: text.drop j
  | [], marks, i => by
    simp [passOctets]
  | b :: bytes, marks, i => by
    show (passOctets text (advance (· == b) text marks) bytes).reaches i = true ↔ _
    rw [reaches_passOctets bytes]
    constructor
    · rintro ⟨j, hi, hj, hpre⟩
      cases j with
      | zero => cases hj
      | succ j =>
        rw [reaches_advance_succ, Bool.and_eq_true, Option.any_eq_true] at hj
        obtain ⟨hj, a, ha, hab⟩ := hj
        rw [eq_of_beq hab] at ha
        exact ⟨j, by rw [hi, List.length_cons]; omega, hj, cons_prefix_drop.2 ⟨ha, hpre⟩⟩
    · rintro ⟨j, hi, hj, hpre⟩
      obtain ⟨hb, hpre⟩ := cons_prefix_drop.1 hpre
      refine ⟨j + 1, by rw [hi, List.length_cons]; omega, ?_, hpre⟩
      rw [reaches_advance_succ, hj, hb]
      simp

/-! ## Literal characters -/

theorem passAll_literals (text : List UInt8) : ∀ (cs : List Char) (marks : Marks),
    passAll text marks (cs.map .literal) = passOctets text marks (cs.flatMap charOctets)
  | [], _ => rfl
  | c :: cs, marks => by
    rw [List.map_cons, passAll, passAll_literals text cs, List.flatMap_cons]
    simp [Token.pass, passOctets, List.foldl_append]

/-- Literal characters match the octets of the text they spell, and no others. -/
theorem takes_literals (label : String) (cs : List Char) (text : List UInt8) :
    (Pattern.mk label (cs.map .literal)).takes text = true ↔ text = cs.flatMap charOctets := by
  have htakes : (Pattern.mk label (cs.map .literal)).takes text =
      (passAll text (start text) (cs.map .literal)).atEnd := by
    unfold Pattern.takes
    split
    · rename_i heq
      cases cs <;> simp at heq
    · rfl
  rw [htakes, passAll_literals, (fit_passOctets _ (fit_start text)).atEnd, reaches_passOctets]
  constructor
  · rintro ⟨j, hlen, hj, hpre⟩
    rw [reaches_start, decide_eq_true_eq] at hj
    subst hj
    rw [Nat.zero_add] at hlen
    exact (hpre.eq_of_length hlen.symm).symm
  · rintro rfl
    exact ⟨0, (Nat.zero_add _).symm, by rw [reaches_start]; rfl, List.prefix_rfl⟩

theorem flatMap_charOctets (s : String) : s.toList.flatMap charOctets = octets s := by
  conv_rhs => rw [← String.ofList_toList (s := s), octets_ofList]
  rfl

theorem accepts_literals (label s s' : String) :
    (Pattern.mk label (s.toList.map .literal)).accepts s' = true ↔ s' = s := by
  unfold Pattern.accepts
  rw [takes_literals, flatMap_charOctets]
  exact ⟨octets_inj, congrArg octets⟩

/-! ## Escapes -/

/-- The pattern that spells a text: each character of it, escaped. -/
def escaped (s : String) : String := String.ofList (s.toList.flatMap fun c => ['\\', c])

theorem run_escaped : ∀ (cs : List Char) (s : Scan), s.groups = [] →
    s.run (cs.flatMap fun c => ['\\', c]) = .ok (s.tokens.reverse ++ cs.map .literal)
  | [], s, h => by simp [Scan.run, h]
  | c :: cs, s, h => by
    have ih := run_escaped cs { s.push (.literal c) with last := some c } h
    simpa [Scan.run, Scan.push] using ih

theorem parse_escaped (s : String) :
    Pattern.parse (escaped s) = .ok ⟨escaped s, s.toList.map .literal⟩ := by
  unfold Pattern.parse
  have := run_escaped s.toList ⟨[], [], none⟩ rfl
  rw [show (escaped s).toList = s.toList.flatMap fun c => ['\\', c] from String.toList_ofList, this]
  rfl

end CoverageRun.Glob
