/-
The UTF-8 octets of a text: they are those of its characters one after another, no other text has
them, they are read as that text, and a text begins with another exactly if its octets do. A
hexadecimal digit is read as the number it was written for.
-/
import CoverageRun.Text.Octets
import Mathlib.Tactic.SplitIfs

namespace CoverageRun.Text

theorem octets_append (a b : String) : octets (a ++ b) = octets a ++ octets b := by
  simp [octets, String.toByteArray_append]

theorem octets_ofList (cs : List Char) :
    octets (String.ofList cs) = cs.flatMap fun c => octets (String.singleton c) := by
  induction cs with
  | nil => rfl
  | cons c r ih =>
    have hcons : String.ofList (c :: r) = String.singleton c ++ String.ofList r := by
      simp [String.ofList_cons]
    rw [hcons, octets_append, ih, List.flatMap_cons]

theorem octets_inj {a b : String} (h : octets a = octets b) : a = b := by
  unfold octets at h
  refine String.toByteArray_inj.1 (ByteArray.ext ?_)
  exact Array.toList_inj.1 h

/-- No character ends inside another one, so beginnings of octets are beginnings of texts. -/
theorem octets_prefix_iff {a b : String} : octets a <+: octets b ↔ a.toList <+: b.toList := by
  constructor
  · rintro ⟨rest, h⟩
    refine List.isPrefix_of_utf8Encode_append_eq_utf8Encode ⟨rest.toArray⟩ ?_
    rw [String.utf8Encode_toList, String.utf8Encode_toList]
    refine ByteArray.ext (Array.toList_inj.1 ?_)
    simpa [octets] using h
  · rintro ⟨rest, h⟩
    have hb : b = a ++ String.ofList rest := String.toList_inj.1 (by simp [h])
    rw [hb, octets_append]
    exact List.prefix_append _ _

/-! ## Reading octets -/

@[simp]
theorem ofOctets?_octets (s : String) : ofOctets? (octets s) = some s := by
  have hvalid : s.toByteArray.IsValidUTF8 := s.isValidUTF8
  simp [ofOctets?, octets, String.fromUTF8?, String.fromUTF8, hvalid]

theorem octets_singleton (c : Char) : octets (String.singleton c) = String.utf8EncodeChar c := by
  simp [octets, String.toByteArray_singleton, List.utf8Encode_singleton]

/-- ASCII characters are their own octets. -/
theorem octets_of_ascii {cs : List Char} (h : ∀ c ∈ cs, c.toNat < 128) :
    octets (String.ofList cs) = cs.map fun c => UInt8.ofNat c.toNat := by
  have hone : ∀ c : Char, c.toNat < 128 →
      octets (String.singleton c) = [UInt8.ofNat c.toNat] := by
    intro c hc
    rw [octets_singleton]
    exact if_pos (Nat.le_of_lt_succ hc)
  rw [octets_ofList]
  induction cs with
  | nil => rfl
  | cons c r ih =>
    obtain ⟨hc, hr⟩ := List.forall_mem_cons.1 h
    rw [List.flatMap_cons, ih hr, hone c hc, List.map_cons, List.singleton_append]

/-- What the first octet of a character outside ASCII promises. The next one may not be such that
fewer octets would have done, or that no character has them. -/
theorem first?_of_two : ∀ n < 32, 2 ≤ n →
    Owed.first? (UInt8.ofNat (n + 192)) = some (.inr ⟨1, 0x80, 0xBF, UInt32.ofNat n⟩) := by decide

theorem first?_of_three : ∀ n < 16, Owed.first? (UInt8.ofNat (n + 224)) = some (.inr
    ⟨2, if n = 0 then 0xA0 else 0x80, if n = 13 then 0x9F else 0xBF, UInt32.ofNat n⟩) := by decide

theorem first?_of_four : ∀ n < 5, Owed.first? (UInt8.ofNat (n + 240)) = some (.inr
    ⟨3, if n = 0 then 0x90 else 0x80, if n = 4 then 0x8F else 0xBF, UInt32.ofNat n⟩) := by decide

/-- Six more bits. -/
theorem bits_append {n m : Nat} (hn : n < 67108864) (hm : m < 64) :
    (UInt32.ofNat n <<< 6) ||| (UInt8.ofNat (m + 128) &&& 0x3F).toUInt32 =
      UInt32.ofNat (64 * n + m) := by
  have hlow : (UInt8.ofNat (m + 128) &&& 0x3F).toNat = m := by
    have hmask : (m + 128) % 256 &&& 63 = (m + 128) % 256 % 64 := Nat.and_two_pow_sub_one_eq_mod _ 6
    rw [UInt8.toNat_and, UInt8.toNat_ofNat', show (0x3F : UInt8).toNat = 63 from rfl]
    change (m + 128) % 256 &&& 63 = m
    omega
  have hhigh : (UInt32.ofNat n <<< 6).toNat = n <<< 6 := by
    rw [UInt32.toNat_shiftLeft, UInt32.toNat_ofNat', show (6 : UInt32).toNat % 32 = 6 from rfl,
      Nat.shiftLeft_eq, Nat.shiftLeft_eq]
    omega
  refine UInt32.toNat_inj.1 ?_
  rw [UInt32.toNat_or, UInt8.toNat_toUInt32, hlow, hhigh, ← Nat.shiftLeft_add_eq_or_of_lt hm,
    Nat.shiftLeft_eq, UInt32.toNat_ofNat']
  omega

theorem lossyFrom_first {b : UInt8} {owed : Owed} (h : Owed.first? b = some (.inr owed))
    (rest : List UInt8) : lossyFrom none (b :: rest) = lossyFrom (some owed) rest := by
  simp only [lossyFrom, h]

section Owed

variable {count n m : Nat} {least greatest : UInt8} (hn : n < 67108864) (hm : m < 64)
  (hleast : least.toNat ≤ m + 128) (hgreatest : m + 128 ≤ greatest.toNat) (rest : List UInt8)

include hm hleast hgreatest in
theorem fits_owed :
    (least ≤ UInt8.ofNat (m + 128) && UInt8.ofNat (m + 128) ≤ greatest) = true := by
  have hvalue : (UInt8.ofNat (m + 128)).toNat = m + 128 := by
    rw [UInt8.toNat_ofNat']
    omega
  simp only [UInt8.le_iff_toNat_le, hvalue, hleast, hgreatest, decide_true, Bool.and_self]

include hn hm hleast hgreatest in
/-- An octet of six more bits where more than one is owed. -/
theorem lossyFrom_more :
    lossyFrom (some ⟨count + 2, least, greatest, UInt32.ofNat n⟩) (UInt8.ofNat (m + 128) :: rest) =
      lossyFrom (some ⟨count + 1, 0x80, 0xBF, UInt32.ofNat (64 * n + m)⟩) rest := by
  simp only [lossyFrom, fits_owed hm hleast hgreatest, if_true, bits_append hn hm]

include hn hm hleast hgreatest in
/-- The last octet of a character. -/
theorem lossyFrom_last :
    lossyFrom (some ⟨1, least, greatest, UInt32.ofNat n⟩) (UInt8.ofNat (m + 128) :: rest) =
      Char.ofNat (UInt32.ofNat (64 * n + m)).toNat :: lossyFrom none rest := by
  simp only [lossyFrom, fits_owed hm hleast hgreatest, if_true, bits_append hn hm]

end Owed

/-- The octets of a character are read as that character. -/
theorem lossyFrom_octets (c : Char) (rest : List UInt8) :
    lossyFrom none (octets (String.singleton c) ++ rest) = c :: lossyFrom none rest := by
  obtain ⟨v, hv⟩ : ∃ v, c.val.toNat = v := ⟨_, rfl⟩
  have hvalid : v < 0xD800 ∨ 0xDFFF < v ∧ v < 0x110000 := hv ▸ c.valid
  have hback : Char.ofNat (UInt32.ofNat v).toNat = c := by
    rw [← hv, UInt32.ofNat_toNat]
    exact Char.ofNat_toNat c
  simp only [octets_singleton, String.utf8EncodeChar, hv]
  split_ifs with hone htwo hthree <;> simp only [List.cons_append, List.nil_append]
  · have hvalue : (UInt8.ofNat v).toNat = v := by
      rw [UInt8.toNat_ofNat']
      omega
    have hfirst : Owed.first? (UInt8.ofNat v) = some (.inl c) := by
      rw [Owed.first?, if_pos (UInt8.le_iff_toNat_le.2 (by rw [hvalue]; exact hone)), hvalue, ← hv]
      exact congrArg (some ∘ Sum.inl) (Char.ofNat_toNat c)
    simp only [lossyFrom, hfirst]
  · have hsum : 64 * (v / 64 % 32) + v % 64 = v := by omega
    rw [lossyFrom_first (first?_of_two _ (by omega) (by omega)),
      lossyFrom_last (by omega) (by omega) (by simp) (by simp; omega), hsum, hback]
  · have hsum : 64 * (64 * (v / 4096 % 16) + v / 64 % 64) + v % 64 = v := by omega
    -- the second octet's bounds leave out what fewer octets can say, and the surrogates
    rw [lossyFrom_first (first?_of_three _ (by omega)),
      lossyFrom_more (by omega) (by omega) (by split_ifs <;> simp; omega)
        (by split_ifs <;> simp <;> omega),
      lossyFrom_last (by omega) (by omega) (by simp) (by simp; omega), hsum, hback]
  · have hsum : 64 * (64 * (64 * (v / 262144 % 8) + v / 4096 % 64) + v / 64 % 64) + v % 64 = v := by
      omega
    rw [lossyFrom_first (first?_of_four _ (by omega)),
      lossyFrom_more (by omega) (by omega) (by split_ifs <;> simp; omega)
        (by split_ifs <;> simp <;> omega),
      lossyFrom_more (by omega) (by omega) (by simp) (by simp; omega),
      lossyFrom_last (by omega) (by omega) (by simp) (by simp; omega), hsum, hback]

/-- The octets of a text are read as that text. -/
@[simp]
theorem lossy_octets (s : String) : lossy (octets s) = s := by
  have hchars : ∀ cs : List Char, lossyFrom none (octets (String.ofList cs)) = cs := by
    intro cs
    induction cs with
    | nil => rfl
    | cons c r ih =>
      rw [octets_ofList] at ih
      rw [octets_ofList, List.flatMap_cons, lossyFrom_octets, ih]
  rw [lossy, ← String.ofList_toList (s := s), hchars]

theorem hexValue?_hexDigit : ∀ n < 16, hexValue? (hexDigit n) = some n := by decide

end CoverageRun.Text
