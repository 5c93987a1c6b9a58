/-
Whole numbers are read back as they are written, with or without blanks around them, and what is
written is decimal digits: no separator, no blank and no sign.
-/
import CoverageRun.Numeral.Whole
import CoverageRun.Proofs.Text.Lines
import Mathlib.Tactic.IntervalCases

namespace CoverageRun.Numeral

open Text

/-! ## Digits -/

theorem toList_toString (n : Nat) : (toString n).toList = write n := by simp [write]

theorem write_ne_nil (n : Nat) : write n ≠ [] := Nat.toDigits_ne_nil

theorem isDigit_of_mem_write {n : Nat} {c : Char} (h : c ∈ write n) : isDigit c = true := by
  have hd : c.isDigit = true := Nat.isDigit_of_mem_toDigits (by decide) (by decide) h
  simpa [isDigit, Char.isDigit, Char.le_def] using hd

theorem toNat_of_isDigit {c : Char} (hc : isDigit c = true) : 48 ≤ c.toNat ∧ c.toNat ≤ 57 := by
  simpa [isDigit, Char.le_def, UInt32.le_iff_toNat_le] using hc

theorem isBlank_of_isDigit {c : Char} (h : isDigit c = true) : isBlank c = false := by
  obtain ⟨hlo, hhi⟩ := toNat_of_isDigit h
  rw [← Char.ofNat_toNat c]
  generalize c.toNat = n at hlo hhi
  interval_cases n <;> decide

theorem not_mem_write {n : Nat} {c : Char} (h : isDigit c = false) : c ∉ write n := fun m => by
  rw [isDigit_of_mem_write m] at h; cases h

/-- No zero stands before other digits. -/
theorem head_write {n : Nat} (hn : n ≠ 0) : (write n).head? ≠ some '0' := by
  induction n using Nat.strong_induction_on with
  | _ n ih =>
    unfold write
    by_cases hsmall : n < 10
    · rw [Nat.toDigits_of_lt_base hsmall]
      interval_cases n <;> simp_all [Nat.digitChar]
    · have hfront : write (n / 10) ≠ [] := write_ne_nil _
      rw [Nat.toDigits_of_base_le (by decide) (Nat.le_of_not_lt hsmall), ← write,
        List.head?_append_of_ne_nil _ hfront]
      exact ih (n / 10) (by omega) (by omega)

/-- A written number can end a line. -/
theorem lineTail_write (n : Nat) : LineTail (write n) :=
  ⟨not_mem_write (by decide), fun _ hc =>
    isBlank_of_isDigit (isDigit_of_mem_write (List.mem_of_getLast? hc))⟩

theorem trim_write (n : Nat) : trim (write n) = write n :=
  trim_eq_self (fun _ hc => isBlank_of_isDigit (isDigit_of_mem_write (List.mem_of_head? hc)))
    (lineTail_write n).noBlank

/-! ## Reading back -/

theorem value_write (n : Nat) : value (write n) = n := by
  unfold value valueFrom write
  rw [show (fun v c => 10 * v + digitValue c) = fun v c => 10 * v + (c.toNat - '0'.toNat) from rfl,
    ← Nat.ofDigitChars_eq_foldl, Nat.ofDigitChars_ten_toDigits]

theorem dropPlus_write (n : Nat) : dropPlus (write n) = write n := by
  unfold dropPlus
  split
  · rename_i r h
    have hm : '+' ∈ write n := h ▸ List.mem_cons_self
    exact absurd hm (not_mem_write (by decide))
  · rfl

theorem readBelow_write {bound n : Nat} (h : n < bound) : readBelow bound (write n) = some n := by
  have hall : (write n).all isDigit = true := List.all_eq_true.2 fun _ => isDigit_of_mem_write
  simp [readBelow, dropPlus_write, value_write, write_ne_nil, hall, h]

@[simp]
theorem read32_write (n : UInt32) : read32 (write n.toNat) = some n := by
  rw [read32, readBelow_write n.toNat_lt_size]; simp

@[simp]
theorem read64_write (n : UInt64) : read64 (write n.toNat) = some n := by
  rw [read64, readBelow_write n.toNat_lt_size]; simp

/-! ## Digits that are written -/

theorem write_injective : Function.Injective write :=
  Function.LeftInverse.injective value_write

theorem write_digitValue {c : Char} (hc : isDigit c = true) : write (digitValue c) = [c] := by
  obtain ⟨hlo, hhi⟩ := toNat_of_isDigit hc
  rw [← Char.ofNat_toNat c]
  generalize c.toNat = n at hlo hhi
  interval_cases n <;> decide

/-- Digits behind a number that is not zero are written as they are. -/
theorem write_valueFrom : ∀ {digits : List Char} {n : Nat}, n ≠ 0 →
    (∀ c ∈ digits, isDigit c = true) → write (valueFrom n digits) = write n ++ digits
  | [], n, _, _ => by rw [List.append_nil]; rfl
  | c :: digits, n, hn, hdigits => by
    obtain ⟨hc, hrest⟩ := List.forall_mem_cons.1 hdigits
    have hlt : digitValue c < 10 := by
      have hbound := (toNat_of_isDigit hc).2
      unfold digitValue
      rw [show '0'.toNat = 48 from rfl]
      omega
    have hstep : write (10 * n + digitValue c) = write n ++ [c] := by
      rw [← write_digitValue hc]
      exact (Nat.toDigits_append_toDigits (by decide) (Nat.pos_of_ne_zero hn) hlt).symm
    calc write (valueFrom n (c :: digits))
      _ = write (10 * n + digitValue c) ++ digits :=
        write_valueFrom (n := 10 * n + digitValue c) (by omega) hrest
      _ = write n ++ c :: digits := by rw [hstep, List.append_assoc, List.singleton_append]

/-- Digits of which the first is not zero are a number written. -/
theorem exists_write {cs : List Char} {c : Char} (hhead : cs.head? = some c) (hc : c ≠ '0')
    (hdigits : ∀ d ∈ cs, isDigit d = true) : ∃ n, write n = cs := by
  obtain ⟨digits, rfl⟩ := List.head?_eq_some_iff.1 hhead
  obtain ⟨hfirst, hrest⟩ := List.forall_mem_cons.1 hdigits
  have hwrite := write_digitValue hfirst
  have hne : digitValue c ≠ 0 := fun h => hc (by simpa [h, write, eq_comm] using hwrite)
  exact ⟨_, (write_valueFrom hne hrest).trans (by rw [hwrite]; rfl)⟩

end CoverageRun.Numeral
