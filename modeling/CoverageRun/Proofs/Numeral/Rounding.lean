/-
What a decimal number counts. The number is rounded to the nearest that has 53 significant bits and
is a multiple of `2 ^ -1074`, a half to the even one, and then cut off: at the point, at zero from
below and at the greatest number of 64 bits. The rounding is said over the rational numbers, by the
power of two that is next below a number, and what is computed with whole numbers is equal to it.
-/
import CoverageRun.Proofs.Numeral.Decimal
import Mathlib.Algebra.Order.Floor.Semifield
import Mathlib.Data.Int.Log
import Mathlib.Data.Rat.Floor

namespace CoverageRun.Numeral

/-! ## The nearest number -/

/-- The nearest whole number, a half to the even neighbour. -/
def roundHalfEven (q : ℚ) : ℕ :=
  if q - ⌊q⌋₊ < 1 / 2 then ⌊q⌋₊
  else if 1 / 2 < q - ⌊q⌋₊ then ⌊q⌋₊ + 1
  else if ⌊q⌋₊ % 2 = 0 then ⌊q⌋₊ else ⌊q⌋₊ + 1

/-- The place of the last bit of a rounded number: 52 below its first, but none below `2 ^ -1074`. -/
def lastBit (q : ℚ) : ℤ := max (Int.log 2 q - 52) (-1074)

/-- The nearest number with 53 significant bits. -/
def nearest (q : ℚ) : ℚ := roundHalfEven (q / (2 : ℚ) ^ lastBit q) * (2 : ℚ) ^ lastBit q

theorem roundHalfEven_of_lt_half {q : ℚ} (h : q < 1 / 2) : roundHalfEven q = 0 := by
  have hfloor : ⌊q⌋₊ = 0 := Nat.floor_eq_zero.2 (h.trans (by norm_num))
  rw [roundHalfEven, hfloor, Nat.cast_zero, sub_zero, if_pos h]

/-- Rounding a ratio of whole numbers needs only the quotient and the rest. -/
theorem roundHalfEven_div (a : Nat) {b : Nat} (hb : 0 < b) :
    roundHalfEven ((a : ℚ) / b) = roundDiv a b := by
  have hbq : (0 : ℚ) < b := by exact_mod_cast hb
  have hfloor : ⌊(a : ℚ) / b⌋₊ = a / b := Nat.floor_div_eq_div a b
  have hrest : (a : ℚ) / b - ((a / b : ℕ) : ℚ) = ((a % b : ℕ) : ℚ) / b := by
    have hsplit : (a : ℚ) = b * ((a / b : ℕ) : ℚ) + ((a % b : ℕ) : ℚ) := by
      exact_mod_cast (Nat.div_add_mod a b).symm
    rw [eq_div_iff hbq.ne', sub_mul, div_mul_cancel₀ _ hbq.ne']
    linarith
  have hbelow : ((a % b : ℕ) : ℚ) / b < 1 / 2 ↔ 2 * (a % b) < b := by
    rw [div_lt_div_iff₀ hbq (by norm_num), one_mul, mul_comm]
    exact_mod_cast Iff.rfl
  have habove : 1 / 2 < ((a % b : ℕ) : ℚ) / b ↔ b < 2 * (a % b) := by
    rw [div_lt_div_iff₀ (by norm_num) hbq, one_mul, mul_comm _ (2 : ℚ)]
    exact_mod_cast Iff.rfl
  simp only [roundHalfEven, roundDiv, hfloor, hrest, hbelow, habove]

namespace Binary64

/-- The number that is held. -/
def toRat (x : Binary64) : ℚ := x.mantissa * (2 : ℚ) ^ x.exponent

theorem exponentFor_eq {num den : Nat} (hnum : num ≠ 0) (hden : den ≠ 0) :
    exponentFor num den = lastBit ((num : ℚ) / den) := by
  obtain ⟨top, he, hlow, hhigh⟩ := exponentFor_spec hnum hden
  have hpos : (0 : ℚ) < (num : ℚ) / den := (two_zpow_pos top).trans_le hlow
  have hle : top ≤ Int.log 2 ((num : ℚ) / den) :=
    (Int.zpow_le_iff_le_log (by decide) hpos).1 (by exact_mod_cast hlow)
  have hlt : Int.log 2 ((num : ℚ) / den) < top + 1 :=
    (Int.lt_zpow_iff_log_lt (by decide) hpos).1 (by exact_mod_cast hhigh)
  rw [he, lastBit, show Int.log 2 ((num : ℚ) / den) = top by omega]

/-- A ratio is rounded to the nearest number. -/
theorem toRat_ofRatio {num den : Nat} (hnum : num ≠ 0) (hden : den ≠ 0) :
    (ofRatio num den).toRat = nearest ((num : ℚ) / den) := by
  obtain ⟨a, b, hb, hab, hround⟩ := ofRatio_spec hnum hden
  rw [hround, toRat, nearest, ← exponentFor_eq hnum hden, ← hab, roundHalfEven_div a hb]

theorem truncate_eq (x : Binary64) : x.truncate = ⌊x.toRat⌋₊ := by
  obtain ⟨hpos, hratio⟩ := ratioOf_spec x.mantissa x.exponent
  have hposq : (0 : ℚ) < (ratioOf x.mantissa x.exponent).2 := by exact_mod_cast hpos
  have hvalue : x.toRat = (x.ratio.1 : ℚ) / x.ratio.2 := (eq_div_iff hposq.ne').2 hratio.symm
  rw [hvalue, Nat.floor_div_eq_div]
  rfl

end Binary64

open Binary64 (two_zpow_pos)

/-- Far below the smallest numbers there is nothing to count. -/
theorem nearest_of_lt {q : ℚ} (hq : 0 < q) (h : q < (2 : ℚ) ^ (-1075 : ℤ)) : nearest q = 0 := by
  have hlog : Int.log 2 q < -1075 := (Int.lt_zpow_iff_log_lt (by decide) hq).1 (by exact_mod_cast h)
  have hbit : lastBit q = -1074 := by unfold lastBit; omega
  have hhalf : q / (2 : ℚ) ^ (-1074 : ℤ) < 1 / 2 := by
    rw [div_lt_iff₀ (two_zpow_pos _)]
    calc q < (2 : ℚ) ^ (-1075 : ℤ) := h
      _ = 1 / 2 * (2 : ℚ) ^ (-1074 : ℤ) := by
        rw [show (-1075 : ℤ) = -1 + -1074 by norm_num, zpow_add₀ (by norm_num)]; norm_num
  rw [nearest, hbit, roundHalfEven_of_lt_half hhalf, Nat.cast_zero, zero_mul]

namespace Decimal

/-! ## Counts -/

theorem ten_zpow_lt : (10 : ℚ) ^ (-400 : ℤ) < (2 : ℚ) ^ (-1075 : ℤ) := by
  have hpow : (2 : ℕ) ^ 1075 < 10 ^ 400 := by decide +kernel
  rw [show (-400 : ℤ) = -((400 : ℕ) : ℤ) by norm_num, show (-1075 : ℤ) = -((1075 : ℕ) : ℤ) by norm_num,
    zpow_neg, zpow_neg, zpow_natCast, zpow_natCast, inv_lt_inv₀ (by positivity) (by positivity)]
  exact_mod_cast hpow

/-- The size of a decimal number is the nearest number to it. -/
theorem toRat_of_magnitude {digits : Nat} {exponent : Int} {x : Binary64}
    (h : magnitude digits exponent = some x) :
    x.toRat = nearest ((digits : ℚ) * (10 : ℚ) ^ exponent) := by
  by_cases hzero : digits = 0
  · subst hzero
    rw [magnitude, if_pos rfl] at h
    cases h
    simp [Binary64.toRat, nearest, roundHalfEven]
  have hdigits : (0 : ℚ) < digits := by exact_mod_cast Nat.pos_of_ne_zero hzero
  have hten : (0 : ℚ) < (10 : ℚ) ^ exponent := zpow_pos (by norm_num) _
  rw [magnitude, if_neg hzero] at h
  dsimp only at h
  split_ifs at h with hlarge hsmall hint hfinite hfinite <;> cases h
  · -- fewer than that many digits before the point leave nothing of the number
    have hlength : (digits : ℚ) < (10 : ℚ) ^ ((Nat.toDigits 10 digits).length : ℤ) := by
      rw [zpow_natCast]
      exact_mod_cast (Nat.length_toDigits_le_iff (by decide) Nat.length_toDigits_pos).1 le_rfl
    have htiny : (digits : ℚ) * (10 : ℚ) ^ exponent < (2 : ℚ) ^ (-1075 : ℤ) :=
      calc (digits : ℚ) * (10 : ℚ) ^ exponent
        _ < (10 : ℚ) ^ ((Nat.toDigits 10 digits).length : ℤ) * (10 : ℚ) ^ exponent := by gcongr
        _ = (10 : ℚ) ^ (((Nat.toDigits 10 digits).length : ℤ) + exponent) :=
          (zpow_add₀ (by norm_num) _ _).symm
        _ ≤ (10 : ℚ) ^ (-400 : ℤ) := zpow_le_zpow_right₀ (by norm_num) (by omega)
        _ < (2 : ℚ) ^ (-1075 : ℤ) := ten_zpow_lt
    rw [nearest_of_lt (mul_pos hdigits hten) htiny]
    simp [Binary64.toRat]
  · obtain ⟨k, rfl⟩ := Int.eq_ofNat_of_zero_le hint
    rw [Binary64.toRat_ofRatio (Nat.mul_ne_zero hzero (by simp [Nat.pow_eq])) one_ne_zero]
    simp [Nat.pow_eq]
  · obtain ⟨k, rfl⟩ : ∃ k : Nat, exponent = -(k : Int) := ⟨(-exponent).toNat, by omega⟩
    rw [Binary64.toRat_ofRatio hzero (by simp [Nat.pow_eq])]
    simp [Nat.pow_eq, div_eq_mul_inv]

/-- The count of a decimal number. -/
def countOf (negative : Bool) (q : ℚ) : ℕ := if negative then 0 else min ⌊nearest q⌋₊ (2 ^ 64 - 1)

/-- A decimal number has its count exactly if it is not too large. -/
theorem toCount_eq_some_iff {negative : Bool} {digits : Nat} {power : Int} {count : UInt64} :
    toCount (.finite negative digits power) = some count ↔
      (digits : ℚ) * (10 : ℚ) ^ power < Binary64.finiteLimit ∧
        count.toNat = countOf negative ((digits : ℚ) * (10 : ℚ) ^ power) := by
  have hcount : ∀ x, magnitude digits power = some x →
      (if negative then (0 : UInt64) else UInt64.ofNat (min x.truncate (UInt64.size - 1))).toNat =
        countOf negative ((digits : ℚ) * (10 : ℚ) ^ power) := by
    intro x hx
    rw [countOf, ← toRat_of_magnitude hx, ← Binary64.truncate_eq]
    cases negative with
    | true => rfl
    | false => exact UInt64.toNat_ofNat_of_lt' (by rw [UInt64.size]; omega)
  rw [← isSome_magnitude_iff, toCount]
  constructor
  · intro h
    obtain ⟨x, hx, rfl⟩ := Option.map_eq_some_iff.1 h
    exact ⟨hx ▸ rfl, hcount x hx⟩
  · rintro ⟨hsome, h⟩
    obtain ⟨x, hx⟩ := Option.isSome_iff_exists.1 hsome
    rw [hx, Option.map_some, Option.some_inj, ← UInt64.toNat_inj, h]
    exact hcount x hx

end Decimal

end CoverageRun.Numeral
