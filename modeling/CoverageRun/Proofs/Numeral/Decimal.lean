/-
The notation of numbers as a grammar: whole numbers are digits, possibly after a plus sign; decimal
numbers have a sign, a point and an exponent besides. What is read as a finite decimal number is
exactly what is written so and is not too large for 53 bits.
-/
import CoverageRun.Numeral.Decimal
import CoverageRun.Proofs.Numeral.Binary64
import CoverageRun.Proofs.Numeral.Whole

namespace CoverageRun.Numeral

/-! ## Whole numbers -/

/-- One or more decimal digits. -/
def Digits (cs : List Char) : Prop := cs ≠ [] ∧ ∀ c ∈ cs, isDigit c = true

/-- A whole number below a bound: digits, possibly after a plus sign. -/
def IsWhole (bound : Nat) (cs : List Char) : Prop :=
  ∃ digits, (cs = digits ∨ cs = '+' :: digits) ∧ Digits digits ∧ value digits < bound

theorem Digits.exists_cons {cs : List Char} (h : Digits cs) :
    ∃ c r, cs = c :: r ∧ isDigit c = true := by
  obtain ⟨c, r, rfl⟩ := List.exists_cons_of_ne_nil h.1
  exact ⟨c, r, rfl, h.2 c List.mem_cons_self⟩

/-- A whole number in decimal digits, possibly after a plus sign. -/
def WritesWhole (cs : List Char) (n : Nat) : Prop :=
  ∃ digits, (cs = digits ∨ cs = '+' :: digits) ∧ Digits digits ∧ Nat.ofDigitChars 10 digits 0 = n

theorem value_eq (digits : List Char) : value digits = Nat.ofDigitChars 10 digits 0 := by
  rw [Nat.ofDigitChars_eq_foldl]
  rfl

theorem isWhole_iff {bound : Nat} {cs : List Char} :
    IsWhole bound cs ↔ ∃ n < bound, WritesWhole cs n := by
  constructor
  · rintro ⟨digits, hcs, hdigits, hvalue⟩
    exact ⟨_, hvalue, digits, hcs, hdigits, (value_eq digits).symm⟩
  · rintro ⟨n, hn, digits, hcs, hdigits, rfl⟩
    exact ⟨digits, hcs, hdigits, (value_eq digits).symm ▸ hn⟩

/-- A number is read under a bound exactly where it is written and below the bound. -/
theorem readBelow_eq_some_iff {bound n : Nat} {cs : List Char} :
    readBelow bound cs = some n ↔ WritesWhole cs n ∧ n < bound := by
  have hread : readBelow bound cs = some n ↔
      Digits (dropPlus cs) ∧ value (dropPlus cs) < bound ∧ value (dropPlus cs) = n := by
    unfold readBelow
    dsimp only
    split
    · rename_i h
      have hdigits : Digits (dropPlus cs) := ⟨h.1, List.all_eq_true.1 h.2.1⟩
      simp [hdigits, h.2.2]
    · rename_i h
      refine iff_of_false (by simp) ?_
      rintro ⟨hdigits, hvalue, -⟩
      exact h ⟨hdigits.1, List.all_eq_true.2 hdigits.2, hvalue⟩
  rw [hread]
  constructor
  · rintro ⟨hdigits, hvalue, rfl⟩
    refine ⟨⟨dropPlus cs, ?_, hdigits, (value_eq _).symm⟩, hvalue⟩
    unfold dropPlus
    split
    · exact .inr rfl
    · exact .inl rfl
  · rintro ⟨⟨digits, hcs, hdigits, rfl⟩, hvalue⟩
    have hdrop : dropPlus cs = digits := by
      rcases hcs with rfl | rfl
      · obtain ⟨c, r, rfl, hc⟩ := hdigits.exists_cons
        have hplus : c ≠ '+' := by rintro rfl; exact absurd hc (by decide)
        rw [dropPlus.eq_2 _ (by simpa using hplus)]
      · rfl
    rw [hdrop, value_eq]
    exact ⟨hdigits, hvalue, rfl⟩

theorem read32_eq_some_iff {cs : List Char} {n : UInt32} :
    read32 cs = some n ↔ WritesWhole cs n.toNat := by
  unfold read32
  constructor
  · intro h
    obtain ⟨m, hm, rfl⟩ := Option.map_eq_some_iff.1 h
    obtain ⟨hwhole, hlt⟩ := readBelow_eq_some_iff.1 hm
    rwa [UInt32.toNat_ofNat_of_lt' hlt]
  · intro h
    rw [readBelow_eq_some_iff.2 ⟨h, n.toNat_lt_size⟩, Option.map_some, UInt32.ofNat_toNat]

theorem read64_eq_some_iff {cs : List Char} {n : UInt64} :
    read64 cs = some n ↔ WritesWhole cs n.toNat := by
  unfold read64
  constructor
  · intro h
    obtain ⟨m, hm, rfl⟩ := Option.map_eq_some_iff.1 h
    obtain ⟨hwhole, hlt⟩ := readBelow_eq_some_iff.1 hm
    rwa [UInt64.toNat_ofNat_of_lt' hlt]
  · intro h
    rw [readBelow_eq_some_iff.2 ⟨h, n.toNat_lt_size⟩, Option.map_some, UInt64.ofNat_toNat]

theorem isSome_readBelow_iff {bound : Nat} {cs : List Char} :
    (readBelow bound cs).isSome = true ↔ IsWhole bound cs := by
  simp only [Option.isSome_iff_exists, readBelow_eq_some_iff, isWhole_iff, and_comm]

namespace Decimal

/-! ## Decimal numbers -/

/-- The exponent part of a decimal number, which may be missing, and its value. -/
inductive WritesExponent : List Char → Int → Prop
  | absent : WritesExponent [] 0
  | plain {mark : Char} {digits : List Char} (hmark : mark = 'e' ∨ mark = 'E')
      (hdigits : Digits digits) : WritesExponent (mark :: digits) (value digits)
  | plus {mark : Char} {digits : List Char} (hmark : mark = 'e' ∨ mark = 'E')
      (hdigits : Digits digits) : WritesExponent (mark :: '+' :: digits) (value digits)
  | minus {mark : Char} {digits : List Char} (hmark : mark = 'e' ∨ mark = 'E')
      (hdigits : Digits digits) : WritesExponent (mark :: '-' :: digits) (-(value digits : Int))

/-- The digits of a decimal number, with a point before, among or behind them or without one: the
whole number they make, and how many of them are behind the point. -/
inductive WritesDigits : List Char → Nat → Nat → Prop
  | whole {digits : List Char} (hdigits : Digits digits) : WritesDigits digits (value digits) 0
  | pointed {front back : List Char} (hdigits : Digits (front ++ back)) :
      WritesDigits (front ++ '.' :: back) (value (front ++ back)) back.length

/-- A decimal number without its sign, as digits times a power of ten. -/
def WritesMagnitude (cs : List Char) (n : Nat) (power : Int) : Prop :=
  ∃ front tail places exponent, cs = front ++ tail ∧ WritesDigits front n places ∧
    WritesExponent tail exponent ∧ power = exponent - places

/-- A decimal number: a sign or none, and a magnitude that is no more than what 53 bits hold. -/
def IsFinite (cs : List Char) : Prop :=
  ∃ r n power, (cs = r ∨ cs = '+' :: r ∨ cs = '-' :: r) ∧ WritesMagnitude r n power ∧
    (n : ℚ) * (10 : ℚ) ^ power < Binary64.finiteLimit

theorem lower_eq_e_iff {c : Char} : lower c = 'e' ↔ c = 'e' ∨ c = 'E' := by
  unfold lower
  split
  · rename_i h
    simp only [Bool.and_eq_true, decide_eq_true_eq] at h
    have hlow : 65 ≤ c.toNat := h.1
    have hhigh : c.toNat ≤ 90 := h.2
    rw [← Char.ofNat_toNat c]
    generalize c.toNat = n at hlow hhigh
    interval_cases n <;> decide
  · rename_i h
    refine ⟨.inl, ?_⟩
    rintro (rfl | rfl)
    · rfl
    · exact absurd (by decide) h

/-! ### Signs and digits in front -/

/-- What begins with a digit or a point has no sign. -/
theorem takeSign_of_head {c : Char} {r : List Char} (hc : isDigit c = true ∨ c = '.') :
    takeSign (c :: r) = (false, c :: r) :=
  takeSign.eq_3 _ (by rintro r' h; cases h; exact absurd hc (by decide))
    (by rintro r' h; cases h; exact absurd hc (by decide))

theorem takeDigits_append {digits rest : List Char} (hdigits : ∀ c ∈ digits, isDigit c = true)
    (hrest : ∀ c, rest.head? = some c → isDigit c = false) :
    takeDigits (digits ++ rest) = (digits, rest) := by
  have hstop : rest.takeWhile isDigit = [] ∧ rest.dropWhile isDigit = rest := by
    cases rest with
    | nil => exact ⟨rfl, rfl⟩
    | cons c r => simp [hrest c rfl]
  unfold takeDigits
  rw [List.takeWhile_append_of_pos hdigits, List.dropWhile_append_of_pos hdigits, hstop.1, hstop.2,
    List.append_nil]

theorem takeDigits_spec {cs digits rest : List Char} (h : takeDigits cs = (digits, rest)) :
    cs = digits ++ rest ∧ ∀ c ∈ digits, isDigit c = true := by
  cases h
  exact ⟨(List.takeWhile_append_dropWhile).symm, List.all_eq_true.1 List.all_takeWhile⟩

/-- What a number begins with is a digit or a point. -/
theorem WritesDigits.head {cs : List Char} {n places : Nat} (h : WritesDigits cs n places) :
    ∃ c r, cs = c :: r ∧ (isDigit c = true ∨ c = '.') := by
  cases h with
  | whole hdigits =>
    obtain ⟨c, r, rfl, hc⟩ := hdigits.exists_cons
    exact ⟨c, r, rfl, .inl hc⟩
  | pointed hdigits =>
    rename_i front back
    cases front with
    | nil => exact ⟨'.', back, rfl, .inr rfl⟩
    | cons c r => exact ⟨c, _, rfl, .inl (hdigits.2 c List.mem_cons_self)⟩

/-- An exponent begins with its mark. -/
theorem WritesExponent.head {cs : List Char} {e : Int} (h : WritesExponent cs e) {c : Char}
    (hc : cs.head? = some c) : c = 'e' ∨ c = 'E' := by
  cases h <;> simp_all

/-! ### Reading -/

theorem readExponent_eq_some_iff {cs : List Char} {e : Int} :
    readExponent cs = some e ↔ WritesExponent cs e := by
  have hall : ∀ {digits : List Char}, (digits ≠ [] ∧ digits.all isDigit = true) ↔ Digits digits := by
    simp [Digits]
  cases cs with
  | nil =>
    constructor
    · intro h; cases h; exact .absent
    · intro h; cases h; rfl
  | cons mark r =>
    have hsigned : ∀ {negative : Bool} {digits : List Char}, takeSign r = (negative, digits) →
        (readExponent (mark :: r) = some e ↔ (mark = 'e' ∨ mark = 'E') ∧ Digits digits ∧
          (if negative then -(value digits : Int) else (value digits : Int)) = e) := by
      intro negative digits hsign
      unfold readExponent
      simp only [hsign, lower_eq_e_iff, hall]
      split_ifs <;> simp_all
    constructor
    · intro h
      unfold takeSign at hsigned
      split at hsigned
      · obtain ⟨hmark, hdigits, rfl⟩ := (hsigned rfl).1 h; exact .minus hmark hdigits
      · obtain ⟨hmark, hdigits, rfl⟩ := (hsigned rfl).1 h; exact .plus hmark hdigits
      · obtain ⟨hmark, hdigits, rfl⟩ := (hsigned rfl).1 h; exact .plain hmark hdigits
    · intro h
      cases h with
      | plain hmark hdigits =>
        obtain ⟨c, r, rfl, hc⟩ := hdigits.exists_cons
        exact (hsigned (takeSign_of_head (.inl hc))).2 ⟨hmark, hdigits, rfl⟩
      | plus hmark hdigits => exact (hsigned rfl).2 ⟨hmark, hdigits, rfl⟩
      | minus hmark hdigits => exact (hsigned rfl).2 ⟨hmark, hdigits, rfl⟩

theorem readMagnitude_eq_some_iff {negative : Bool} {cs : List Char} {d : Decimal} :
    readMagnitude negative cs = some d ↔
      ∃ n power, WritesMagnitude cs n power ∧ d = .finite negative n power := by
  constructor
  · intro h
    unfold readMagnitude at h
    obtain ⟨whole, r, hwhole⟩ : ∃ whole r, takeDigits cs = (whole, r) := ⟨_, _, rfl⟩
    obtain ⟨rfl, hdigits⟩ := takeDigits_spec hwhole
    simp only [hwhole] at h
    split at h
    · -- the digits behind a point belong to the number
      rename_i back
      obtain ⟨fraction, tail, hfraction⟩ : ∃ fraction tail, takeDigits back = (fraction, tail) :=
        ⟨_, _, rfl⟩
      obtain ⟨rfl, hback⟩ := takeDigits_spec hfraction
      simp only [hfraction] at h
      split at h
      · cases h
      rename_i hne
      obtain ⟨e, he, rfl⟩ := Option.map_eq_some_iff.1 h
      refine ⟨_, _, ⟨whole ++ '.' :: fraction, tail, _, e, by simp, .pointed ⟨?_, ?_⟩,
        readExponent_eq_some_iff.1 he, rfl⟩, rfl⟩
      · simpa [not_and_or] using hne
      · intro c hc
        exact (List.mem_append.1 hc).elim (hdigits c) (hback c)
    · split at h
      · cases h
      rename_i hne
      obtain ⟨e, he, rfl⟩ := Option.map_eq_some_iff.1 h
      have hwne : whole ≠ [] := by simpa using hne
      exact ⟨_, _, ⟨whole, _, 0, e, rfl, .whole ⟨hwne, hdigits⟩, readExponent_eq_some_iff.1 he, rfl⟩,
        by simp⟩
  · rintro ⟨n, power, ⟨front, tail, places, e, rfl, hfront, htail, rfl⟩, rfl⟩
    have hmark : ∀ c, tail.head? = some c → isDigit c = false := fun c hc => by
      rcases htail.head hc with rfl | rfl <;> decide
    have hexponent : readExponent tail = some e := readExponent_eq_some_iff.2 htail
    unfold readMagnitude
    cases hfront with
    | whole hdigits =>
      simp only [takeDigits_append hdigits.2 hmark]
      split
      · rename_i r hpoint
        exact absurd (htail.head (c := '.') (by simp)) (by decide)
      · simp [hdigits.1, hexponent]
    | pointed hdigits =>
      rename_i whole back
      have hwhole : takeDigits (whole ++ '.' :: back ++ tail) = (whole, '.' :: (back ++ tail)) := by
        rw [List.append_assoc]
        exact takeDigits_append (fun c hc => hdigits.2 c (List.mem_append_left _ hc))
          (by rintro c ⟨⟩; decide)
      have hback : takeDigits (back ++ tail) = (back, tail) :=
        takeDigits_append (fun c hc => hdigits.2 c (List.mem_append_right _ hc)) hmark
      have hne : ¬ (whole = [] ∧ back = []) := by simpa using hdigits.1
      simp only [hwhole, hback]
      rw [if_neg hne, hexponent]
      rfl

/-- A number that begins with a digit or a point is no word. -/
theorem read_eq_readMagnitude {cs r : List Char} {negative : Bool}
    (hsign : takeSign cs = (negative, r)) {c : Char} {r' : List Char} (hr : r = c :: r')
    (hc : isDigit c = true ∨ c = '.') : read cs = readMagnitude negative r := by
  have hlower : lower c ≠ 'n' ∧ lower c ≠ 'i' := by
    have hsame : lower c = c ∧ c ≠ 'n' ∧ c ≠ 'i' := by
      rcases hc with hc | rfl
      · have hlow : ¬ 'A' ≤ c := by
          simp only [isDigit, Bool.and_eq_true, decide_eq_true_eq] at hc
          intro h
          have hdigit : c.toNat ≤ 57 := hc.2
          have hletter : 65 ≤ c.toNat := h
          omega
        refine ⟨by simp [lower, hlow], ?_, ?_⟩ <;> rintro rfl <;> exact absurd hc (by decide)
      · decide
    rw [hsame.1]
    exact hsame.2
  have hword : ∀ word : String, word.toList.head? = some 'n' ∨ word.toList.head? = some 'i' →
      String.ofList (r.map lower) ≠ word := by
    rintro word hw rfl
    rw [String.toList_ofList, hr] at hw
    simp [hlower.1, hlower.2] at hw
  unfold read
  simp only [hsign]
  rw [if_neg (hword "nan" (.inl rfl)),
    if_neg (not_or.2 ⟨hword "inf" (.inr rfl), hword "infinity" (.inr rfl)⟩)]

/-! ### Sizes -/

theorem two_pow_le_ten_pow : (2 : ℕ) ^ 1024 ≤ 10 ^ 400 := by decide +kernel

/-- The size of a decimal number is found exactly if it is below the limit. -/
theorem isSome_magnitude_iff (digits : Nat) (exponent : Int) :
    (magnitude digits exponent).isSome = true ↔
      (digits : ℚ) * (10 : ℚ) ^ exponent < Binary64.finiteLimit := by
  have hlimit : (0 : ℚ) < Binary64.finiteLimit :=
    (Binary64.two_zpow_pos 1023).trans Binary64.lt_finiteLimit
  by_cases hzero : digits = 0
  · subst hzero
    simpa [magnitude] using hlimit
  rw [magnitude, if_neg hzero]
  dsimp only
  have hten : (0 : ℚ) < (10 : ℚ) ^ exponent := zpow_pos (by norm_num) _
  -- the number of digits bounds the number from both sides
  set length := (Nat.toDigits 10 digits).length with hlength
  have hpos : 0 < length := Nat.length_toDigits_pos
  have hlow : 10 ^ (length - 1) ≤ digits := by
    by_cases hone : length = 1
    · rw [hone]; exact Nat.pos_of_ne_zero hzero
    · have h := (Nat.length_toDigits_le_iff (b := 10) (n := digits) (k := length - 1) (by decide)
        (by omega)).not.1 (by omega)
      exact Nat.not_lt.1 h
  have hhigh : digits < 10 ^ length :=
    (Nat.length_toDigits_le_iff (by decide) hpos).1 le_rfl
  have hlowq : (10 : ℚ) ^ ((length : Int) - 1) ≤ digits := by
    rw [show (length : Int) - 1 = ((length - 1 : Nat) : Int) by omega, zpow_natCast]
    exact_mod_cast hlow
  have hhighq : (digits : ℚ) < (10 : ℚ) ^ (length : Int) := by
    rw [zpow_natCast]; exact_mod_cast hhigh
  by_cases hlarge : 400 < (length : Int) + exponent
  · rw [if_pos hlarge]
    refine iff_of_false (by simp) (not_lt.2 ?_)
    calc Binary64.finiteLimit ≤ (2 : ℚ) ^ (1024 : Int) := Binary64.finiteLimit_lt.le
      _ ≤ (10 : ℚ) ^ (400 : Int) := by
        rw [show (1024 : Int) = ((1024 : Nat) : Int) from rfl,
          show (400 : Int) = ((400 : Nat) : Int) from rfl, zpow_natCast, zpow_natCast]
        exact_mod_cast two_pow_le_ten_pow
      _ ≤ (10 : ℚ) ^ ((length : Int) - 1 + exponent) := zpow_le_zpow_right₀ (by norm_num) (by omega)
      _ = (10 : ℚ) ^ ((length : Int) - 1) * (10 : ℚ) ^ exponent := zpow_add₀ (by norm_num) _ _
      _ ≤ digits * (10 : ℚ) ^ exponent := by gcongr
  rw [if_neg hlarge]
  by_cases hsmall : (length : Int) + exponent < -400
  · rw [if_pos hsmall]
    refine iff_of_true (by simp) ?_
    calc (digits : ℚ) * (10 : ℚ) ^ exponent < (10 : ℚ) ^ (length : Int) * (10 : ℚ) ^ exponent := by gcongr
      _ = (10 : ℚ) ^ ((length : Int) + exponent) := (zpow_add₀ (by norm_num) _ _).symm
      _ ≤ (10 : ℚ) ^ (0 : Int) := zpow_le_zpow_right₀ (by norm_num) (by omega)
      _ = (2 : ℚ) ^ (0 : Int) := by norm_num
      _ ≤ (2 : ℚ) ^ (1023 : Int) := zpow_le_zpow_right₀ (by norm_num) (by norm_num)
      _ < Binary64.finiteLimit := Binary64.lt_finiteLimit
  rw [if_neg hsmall]
  have hsome : ∀ x : Binary64, (if x.isFinite = true then some x else none).isSome = x.isFinite := by
    intro x
    split <;> simp_all
  rw [hsome]
  by_cases hint : 0 ≤ exponent
  · obtain ⟨k, rfl⟩ := Int.eq_ofNat_of_zero_le hint
    have hfinite := Binary64.isFinite_ofRatio_iff (digits * Nat.pow 10 k) one_ne_zero
    rw [Nat.cast_one, div_one, Nat.pow_eq, Nat.cast_mul, Nat.cast_pow, Nat.cast_ofNat,
      ← zpow_natCast] at hfinite
    rw [if_pos hint, ← hfinite]
    rfl
  · obtain ⟨k, rfl⟩ : ∃ k : Nat, exponent = -(k : Int) := ⟨(-exponent).toNat, by omega⟩
    have hfinite := Binary64.isFinite_ofRatio_iff digits (show Nat.pow 10 k ≠ 0
      by rw [Nat.pow_eq]; positivity)
    rw [Nat.pow_eq, Nat.cast_pow, Nat.cast_ofNat, ← zpow_natCast, div_eq_mul_inv,
      ← zpow_neg] at hfinite
    rw [if_neg hint, ← hfinite, neg_neg]
    rfl

/-- A text with a minus sign before the rest, or with a plus sign or none. -/
def Signed (negative : Bool) (cs rest : List Char) : Prop :=
  if negative then cs = '-' :: rest else cs = rest ∨ cs = '+' :: rest

/-- What is read as a finite number is a sign and a magnitude. -/
theorem read_eq_finite_iff {cs : List Char} {negative : Bool} {n : Nat} {power : Int} :
    read cs = some (.finite negative n power) ↔
      ∃ r, Signed negative cs r ∧ WritesMagnitude r n power := by
  constructor
  · intro h
    unfold read at h
    obtain ⟨minus, r, hsign⟩ : ∃ minus r, takeSign cs = (minus, r) := ⟨_, _, rfl⟩
    simp only [hsign] at h
    split_ifs at h
    · cases h
    · cases h
    obtain ⟨n', power', hwritten, heq⟩ := readMagnitude_eq_some_iff.1 h
    cases heq
    refine ⟨r, ?_, hwritten⟩
    unfold takeSign at hsign
    split at hsign <;> cases hsign
    · exact rfl
    · exact .inr rfl
    · exact .inl rfl
  · rintro ⟨r, hsign, hwritten⟩
    obtain ⟨front, tail, places, e, rfl, hfront, htail⟩ := id hwritten
    obtain ⟨c, r', rfl, hc⟩ := hfront.head
    have hmagnitude : readMagnitude negative (c :: r' ++ tail) = some (.finite negative n power) :=
      readMagnitude_eq_some_iff.2 ⟨n, power, hwritten, rfl⟩
    rw [← hmagnitude]
    cases negative with
    | true =>
      cases hsign
      exact read_eq_readMagnitude rfl rfl hc
    | false =>
      rcases hsign with rfl | rfl
      · exact read_eq_readMagnitude (takeSign_of_head hc) rfl hc
      · exact read_eq_readMagnitude rfl rfl hc

/-- What is read as a finite number is written as one. -/
theorem isSome_toCount_iff {cs : List Char} :
    ((read cs).bind toCount).isSome = true ↔ IsFinite cs := by
  have hcount : ∀ d, (toCount d).isSome = true ↔ ∃ negative n power,
      d = .finite negative n power ∧ (n : ℚ) * (10 : ℚ) ^ power < Binary64.finiteLimit := by
    intro d
    cases d <;> simp [toCount, isSome_magnitude_iff]
  constructor
  · intro h
    obtain ⟨count, hread⟩ := Option.isSome_iff_exists.1 h
    obtain ⟨d, hread, hd⟩ := Option.bind_eq_some_iff.1 hread
    obtain ⟨negative, n, power, rfl, hsize⟩ := (hcount d).1 (hd ▸ rfl)
    obtain ⟨r, hsign, hwritten⟩ := read_eq_finite_iff.1 hread
    refine ⟨r, n, power, ?_, hwritten, hsize⟩
    cases negative with
    | true => exact .inr (.inr hsign)
    | false => exact hsign.imp_right .inl
  · rintro ⟨r, n, power, hsign, hwritten, hsize⟩
    have hsigned : ∃ negative, Signed negative cs r := by
      rcases hsign with h | h | h
      · exact ⟨false, .inl h⟩
      · exact ⟨false, .inr h⟩
      · exact ⟨true, h⟩
    obtain ⟨negative, hsigned⟩ := hsigned
    rw [read_eq_finite_iff.2 ⟨r, hsigned, hwritten⟩, Option.bind_some]
    exact (hcount _).2 ⟨negative, n, power, rfl, hsize⟩

end Decimal

end CoverageRun.Numeral
