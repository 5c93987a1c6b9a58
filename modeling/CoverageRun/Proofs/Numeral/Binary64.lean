/-
Which numbers stay finite when they are rounded to 53 significant bits: those below the point half
way between the greatest such number and `2 ^ 1024`. A number at that point has an odd neighbour
below it, so the tie goes up.
-/
import CoverageRun.Numeral.Binary64
import Mathlib.Algebra.Order.Field.Power
import Mathlib.Data.Rat.Cast.Order
import Mathlib.Tactic.FieldSimp
import Mathlib.Tactic.Linarith
import Mathlib.Tactic.NormNum
import Mathlib.Tactic.Positivity
import Mathlib.Tactic.Ring

namespace CoverageRun.Numeral

/-! ## Rounding ratios -/

/-- Below a whole number the rounded ratio does not pass it. -/
theorem roundDiv_le {a b n : Nat} (h : a < n * b) : roundDiv a b ≤ n := by
  have hq : a / b < n := Nat.div_lt_of_lt_mul (Nat.mul_comm n b ▸ h)
  unfold roundDiv
  dsimp only
  split_ifs <;> omega

/-- From a whole number on the rounded ratio is no less. -/
theorem le_roundDiv {a b n : Nat} (hb : 0 < b) (h : n * b ≤ a) : n ≤ roundDiv a b := by
  have hq : n ≤ a / b := (Nat.le_div_iff_mul_le hb).2 h
  unfold roundDiv
  dsimp only
  split_ifs <;> omega

/-- An odd number is the rounded ratio's bound up to half way to the next, where the tie goes up. -/
theorem roundDiv_le_iff_of_odd {a b n : Nat} (hb : 0 < b) (hn : n % 2 = 1) :
    roundDiv a b ≤ n ↔ 2 * a < (2 * n + 1) * b := by
  have hsplit : b * (a / b) + a % b = a := Nat.div_add_mod a b
  have hmod : a % b < b := Nat.mod_lt a hb
  rcases Nat.lt_trichotomy (a / b) n with hq | hq | hq
  · have hle : b * (a / b + 1) ≤ b * n := Nat.mul_le_mul_left b hq
    have hlt : 2 * a < (2 * n + 1) * b := by
      rw [Nat.mul_add, Nat.mul_one] at hle
      rw [Nat.add_mul, Nat.one_mul, Nat.mul_assoc, Nat.mul_comm n b]
      omega
    refine iff_of_true ?_ hlt
    unfold roundDiv
    dsimp only
    split_ifs <;> omega
  · have hiff : 2 * a < (2 * n + 1) * b ↔ 2 * (a % b) < b := by
      rw [Nat.add_mul, Nat.one_mul, Nat.mul_assoc, Nat.mul_comm n b, ← hq]
      omega
    rw [hiff]
    unfold roundDiv
    dsimp only
    split_ifs <;> omega
  · have hle : b * (n + 1) ≤ b * (a / b) := Nat.mul_le_mul_left b hq
    have hge : ¬ 2 * a < (2 * n + 1) * b := by
      rw [Nat.mul_add, Nat.mul_one] at hle
      rw [Nat.add_mul, Nat.one_mul, Nat.mul_assoc, Nat.mul_comm n b]
      omega
    refine iff_of_false ?_ hge
    unfold roundDiv
    dsimp only
    split_ifs <;> omega

namespace Binary64

/-! ## Ratios -/

theorem two_zpow_pos (t : Int) : (0 : ℚ) < (2 : ℚ) ^ t := zpow_pos (by norm_num) t

theorem ratioOf_spec (n : Nat) (e : Int) :
    0 < (ratioOf n e).2 ∧ ((ratioOf n e).1 : ℚ) = n * (2 : ℚ) ^ e * (ratioOf n e).2 := by
  unfold ratioOf
  split_ifs with he
  · obtain ⟨k, rfl⟩ := Int.eq_ofNat_of_zero_le he
    exact ⟨Nat.one_pos, by simp [Nat.pow_eq]⟩
  · obtain ⟨k, rfl⟩ : ∃ k : Nat, e = -(k : Int) := ⟨(-e).toNat, by omega⟩
    refine ⟨by simp [Nat.pow_eq], ?_⟩
    simp [Nat.pow_eq]

theorem ratio_lt_iff (x : Binary64) {n : Nat} {e : Int} (he : e = n) :
    x.ratio.1 < Nat.pow 2 n * x.ratio.2 ↔
      (x.mantissa : ℚ) * (2 : ℚ) ^ x.exponent < (2 : ℚ) ^ e := by
  subst he
  obtain ⟨hpos, hratio⟩ := ratioOf_spec x.mantissa x.exponent
  have hposq : (0 : ℚ) < (ratioOf x.mantissa x.exponent).2 := by exact_mod_cast hpos
  unfold ratio
  rw [Nat.pow_eq, ← Nat.cast_lt (α := ℚ), hratio, Nat.cast_mul, Nat.cast_pow,
    mul_lt_mul_iff_left₀ hposq, zpow_natCast]
  norm_cast

/-- A number is finite if it is below `2 ^ 1024`. -/
theorem isFinite_iff (x : Binary64) :
    x.isFinite = true ↔ (x.mantissa : ℚ) * (2 : ℚ) ^ x.exponent < (2 : ℚ) ^ (1024 : Int) := by
  unfold isFinite
  rw [decide_eq_true_iff]
  apply x.ratio_lt_iff
  rfl

/-! ## The exponent -/

/-- The power of two that is next below a ratio. -/
theorem exponentFor_spec {num den : Nat} (hnum : num ≠ 0) (hden : den ≠ 0) :
    ∃ top : Int, exponentFor num den = max (top - 52) (-1074) ∧
      (2 : ℚ) ^ top ≤ (num : ℚ) / den ∧ (num : ℚ) / den < (2 : ℚ) ^ (top + 1) := by
  have hd : (0 : ℚ) < den := by exact_mod_cast Nat.pos_of_ne_zero hden
  -- the logarithms of both parts bound the ratio within a factor of four
  have hlow : ((2 : ℚ) ^ (num.log2 : Int)) ≤ num := by
    rw [zpow_natCast]; exact_mod_cast Nat.log2_self_le hnum
  have hhigh : (num : ℚ) < (2 : ℚ) ^ ((num.log2 : Int) + 1) := by
    have h : num < 2 ^ (num.log2 + 1) := Nat.lt_log2_self
    rw [show (num.log2 : Int) + 1 = ((num.log2 + 1 : Nat) : Int) by push_cast; rfl, zpow_natCast]
    exact_mod_cast h
  have hdlow : ((2 : ℚ) ^ (den.log2 : Int)) ≤ den := by
    rw [zpow_natCast]; exact_mod_cast Nat.log2_self_le hden
  have hdhigh : (den : ℚ) < (2 : ℚ) ^ ((den.log2 : Int) + 1) := by
    have h : den < 2 ^ (den.log2 + 1) := Nat.lt_log2_self
    rw [show (den.log2 : Int) + 1 = ((den.log2 + 1 : Nat) : Int) by push_cast; rfl, zpow_natCast]
    exact_mod_cast h
  set k : Int := (num.log2 : Int) - (den.log2 : Int) with hk
  obtain ⟨hpos, hratio⟩ := ratioOf_spec den k
  have hposq : (0 : ℚ) < (ratioOf den k).2 := by exact_mod_cast hpos
  have hcompare : (ratioOf den k).1 ≤ num * (ratioOf den k).2 ↔ (2 : ℚ) ^ k ≤ (num : ℚ) / den := by
    rw [← Nat.cast_le (α := ℚ), hratio, Nat.cast_mul, mul_le_mul_iff_left₀ hposq, le_div_iff₀ hd,
      mul_comm]
  have hupper : (num : ℚ) / den < (2 : ℚ) ^ (k + 1) := by
    rw [div_lt_iff₀ hd]
    calc (num : ℚ) < (2 : ℚ) ^ ((num.log2 : Int) + 1) := hhigh
      _ = (2 : ℚ) ^ (k + 1) * (2 : ℚ) ^ (den.log2 : Int) := by
        rw [← zpow_add₀ (by norm_num)]; congr 1; omega
      _ ≤ (2 : ℚ) ^ (k + 1) * den := by gcongr
  have hlower : (2 : ℚ) ^ (k - 1) ≤ (num : ℚ) / den := by
    rw [le_div_iff₀ hd]
    calc (2 : ℚ) ^ (k - 1) * den ≤ (2 : ℚ) ^ (k - 1) * (2 : ℚ) ^ ((den.log2 : Int) + 1) := by gcongr
      _ = (2 : ℚ) ^ (num.log2 : Int) := by
        rw [← zpow_add₀ (by norm_num)]; congr 1; omega
      _ ≤ num := hlow
  by_cases hle : (ratioOf den k).1 ≤ num * (ratioOf den k).2
  · exact ⟨k, by simp [exponentFor, ← hk, hle], hcompare.1 hle, hupper⟩
  · refine ⟨k - 1, by simp [exponentFor, ← hk, hle], hlower, ?_⟩
    rw [Int.sub_add_cancel]
    exact not_le.1 fun h => hle (hcompare.2 h)

/-- A rounded ratio: the ratio scaled by the exponent, rounded to a whole number. -/
theorem ofRatio_spec {num den : Nat} (hnum : num ≠ 0) (hden : den ≠ 0) :
    ∃ a b : Nat, 0 < b ∧ (a : ℚ) / b = (num : ℚ) / den / (2 : ℚ) ^ exponentFor num den ∧
      ofRatio num den = ⟨roundDiv a b, exponentFor num den⟩ := by
  unfold ofRatio
  rw [if_neg hnum]
  dsimp only
  generalize exponentFor num den = e
  split_ifs with he
  · obtain ⟨k, rfl⟩ := Int.eq_ofNat_of_zero_le he
    refine ⟨_, _, ?_, ?_, rfl⟩
    · exact Nat.mul_pos (Nat.pos_of_ne_zero hden) (Nat.pow_pos (by decide))
    · simp [Nat.pow_eq, div_div]
  · obtain ⟨k, rfl⟩ : ∃ k : Nat, e = -(k : Int) := ⟨(-e).toNat, by omega⟩
    refine ⟨_, _, Nat.pos_of_ne_zero hden, ?_, rfl⟩
    simp [Nat.pow_eq, div_inv_eq_mul, mul_div_right_comm]

/-! ## Finite numbers -/

/-- Where rounding to 53 bits begins to reach `2 ^ 1024`. -/
def finiteLimit : ℚ := (2 ^ 54 - 1) * (2 : ℚ) ^ (970 : Int)

theorem finiteLimit_lt : finiteLimit < (2 : ℚ) ^ (1024 : Int) := by
  rw [finiteLimit, show (1024 : Int) = 54 + 970 by norm_num, zpow_add₀ (by norm_num)]
  exact mul_lt_mul_of_pos_right (by norm_num) (two_zpow_pos 970)

theorem lt_finiteLimit : (2 : ℚ) ^ (1023 : Int) < finiteLimit := by
  rw [finiteLimit, show (1023 : Int) = 53 + 970 by norm_num, zpow_add₀ (by norm_num)]
  exact mul_lt_mul_of_pos_right (by norm_num) (two_zpow_pos 970)

/-- A ratio stays finite when it is rounded exactly if it is below the limit. -/
theorem isFinite_ofRatio_iff (num : Nat) {den : Nat} (hden : den ≠ 0) :
    (ofRatio num den).isFinite = true ↔ (num : ℚ) / den < finiteLimit := by
  by_cases hnum : num = 0
  · subst hnum
    rw [ofRatio, if_pos rfl, isFinite_iff, Nat.cast_zero, zero_mul, zero_div]
    refine iff_of_true (two_zpow_pos 1024) ?_
    exact (two_zpow_pos 1023).trans lt_finiteLimit
  obtain ⟨top, he, hlow, hhigh⟩ := exponentFor_spec hnum hden
  obtain ⟨a, b, hb, hab, hround⟩ := ofRatio_spec hnum hden
  have hbq : (0 : ℚ) < b := by exact_mod_cast hb
  rw [isFinite_iff, hround]
  dsimp only
  generalize exponentFor num den = e at he hab
  generalize (num : ℚ) / den = r at hlow hhigh hab
  have hr : r = (a : ℚ) / b * (2 : ℚ) ^ e := by
    rw [hab, div_mul_cancel₀ _ (two_zpow_pos e).ne']
  rcases lt_trichotomy top 1023 with htop | rfl | htop
  · -- far below the limit the scaled ratio stays below `2 ^ 53`
    have hscaled : (a : ℚ) / b < (2 : ℚ) ^ (53 : Int) := by
      rw [hab, div_lt_iff₀ (two_zpow_pos e), ← zpow_add₀ (by norm_num)]
      exact hhigh.trans_le (zpow_le_zpow_right₀ (by norm_num) (by omega))
    have hle : roundDiv a b ≤ 2 ^ 53 := by
      apply roundDiv_le
      rw [div_lt_iff₀ hbq] at hscaled
      exact_mod_cast hscaled
    have hleq : (roundDiv a b : ℚ) ≤ (2 : ℚ) ^ (53 : Int) := by exact_mod_cast hle
    refine iff_of_true ?_ ?_
    · calc (roundDiv a b : ℚ) * (2 : ℚ) ^ e ≤ (2 : ℚ) ^ (53 : Int) * (2 : ℚ) ^ e := by gcongr
        _ = (2 : ℚ) ^ (53 + e) := (zpow_add₀ (by norm_num) _ _).symm
        _ < (2 : ℚ) ^ (1024 : Int) := zpow_lt_zpow_right₀ (by norm_num) (by omega)
    · calc r < (2 : ℚ) ^ (top + 1) := hhigh
        _ ≤ (2 : ℚ) ^ (1023 : Int) := zpow_le_zpow_right₀ (by norm_num) (by omega)
        _ < finiteLimit := lt_finiteLimit
  · -- just below `2 ^ 1024` the rounding decides
    obtain rfl : e = 971 := by omega
    have hfinite : (roundDiv a b : ℚ) * (2 : ℚ) ^ (971 : Int) < (2 : ℚ) ^ (1024 : Int) ↔
        roundDiv a b ≤ 2 ^ 53 - 1 := by
      rw [show (1024 : Int) = 53 + 971 by norm_num, zpow_add₀ (by norm_num),
        mul_lt_mul_iff_left₀ (two_zpow_pos 971),
        show roundDiv a b ≤ 2 ^ 53 - 1 ↔ roundDiv a b < 2 ^ 53 by omega]
      norm_cast
    rw [hfinite, roundDiv_le_iff_of_odd hb (by decide), hr, finiteLimit,
      show (971 : Int) = 1 + 970 by norm_num, zpow_add₀ (by norm_num), ← mul_assoc,
      mul_lt_mul_iff_left₀ (two_zpow_pos 970), ← Nat.cast_lt (α := ℚ), zpow_one, div_mul_eq_mul_div,
      div_lt_iff₀ hbq]
    push_cast
    rw [mul_comm (a : ℚ) 2]
    norm_num
  · -- from `2 ^ 1024` on the scaled ratio is at least `2 ^ 52`
    have hscaled : (2 : ℚ) ^ (52 : Int) ≤ (a : ℚ) / b := by
      rw [hab, le_div_iff₀ (two_zpow_pos e), ← zpow_add₀ (by norm_num)]
      exact (zpow_le_zpow_right₀ (by norm_num) (by omega)).trans hlow
    have hle : 2 ^ 52 ≤ roundDiv a b := by
      apply le_roundDiv hb
      rw [le_div_iff₀ hbq] at hscaled
      exact_mod_cast hscaled
    have hleq : (2 : ℚ) ^ (52 : Int) ≤ roundDiv a b := by exact_mod_cast hle
    refine iff_of_false (not_lt.2 ?_) (not_lt.2 ?_)
    · calc (2 : ℚ) ^ (1024 : Int) ≤ (2 : ℚ) ^ (52 + e) := zpow_le_zpow_right₀ (by norm_num) (by omega)
        _ = (2 : ℚ) ^ (52 : Int) * (2 : ℚ) ^ e := zpow_add₀ (by norm_num) _ _
        _ ≤ (roundDiv a b : ℚ) * (2 : ℚ) ^ e := by gcongr
    · calc finiteLimit ≤ (2 : ℚ) ^ (1024 : Int) := finiteLimit_lt.le
        _ ≤ (2 : ℚ) ^ top := zpow_le_zpow_right₀ (by norm_num) (by omega)
        _ ≤ r := hlow

end Binary64

end CoverageRun.Numeral
