/-
Forms are read as they are written. An octet stands in a form as itself, as a plus sign or as an
escape, and is read from each; no character of a value parts values or names. So names and values
written as a form are read as the same names and values, whatever characters they hold.
-/
import CoverageRun.Proofs.Text.Lines
import CoverageRun.Proofs.Text.Octets
import CoverageRun.Url.Url
import Mathlib.Tactic.SplitIfs

namespace CoverageRun.Url

open Text

/-! ## Characters -/

/-- A letter, a digit or one of some more characters. -/
def isPlain (more : List Char) (c : Char) : Bool :=
  isLetter c || Numeral.isDigit c || more.contains c

theorem toNat_of_isPlain {more : List Char} {c : Char} (hmore : more.all (·.toNat < 128) = true)
    (h : isPlain more c = true) : c.toNat < 128 := by
  simp only [isPlain, isLetter, Numeral.isDigit, Bool.or_eq_true, Bool.and_eq_true,
    decide_eq_true_eq, Char.le_def, UInt32.le_iff_toNat_le, List.contains_iff_mem] at h
  change (('a'.toNat ≤ c.toNat ∧ c.toNat ≤ 'z'.toNat ∨ 'A'.toNat ≤ c.toNat ∧ c.toNat ≤ 'Z'.toNat) ∨
    '0'.toNat ≤ c.toNat ∧ c.toNat ≤ '9'.toNat) ∨ c ∈ more at h
  rcases h with ((⟨-, h⟩ | ⟨-, h⟩) | ⟨-, h⟩) | h
  · exact Nat.lt_of_le_of_lt h (by decide)
  · exact Nat.lt_of_le_of_lt h (by decide)
  · exact Nat.lt_of_le_of_lt h (by decide)
  · exact of_decide_eq_true (List.all_eq_true.1 hmore c h)

/-- What holds of every such character of ASCII holds of every such character. -/
theorem forall_isPlain {more : List Char} {p : Char → Prop} (hmore : more.all (·.toNat < 128) = true)
    (hp : ∀ n < 128, isPlain more (Char.ofNat n) = true → p (Char.ofNat n)) {c : Char}
    (h : isPlain more c = true) : p c := by
  rw [← Char.ofNat_toNat c] at h ⊢
  exact hp _ (by rw [Char.ofNat_toNat] at h; exact toNat_of_isPlain hmore h) h

theorem isPlain_mono {more more' : List Char} (hsub : more ⊆ more') {c : Char}
    (h : isPlain more c = true) : isPlain more' c = true := by
  simp only [isPlain, Bool.or_eq_true, List.contains_iff_mem] at h ⊢
  exact h.imp_right fun m => hsub m

/-! ## Escapes -/

theorem hexValue?_upperDigit : ∀ n < 16,
    hexValue? (Char.ofNat (UInt8.ofNat (upperDigit n).toNat).toNat) = some n := by decide

/-- An octet that is no percent sign stands for itself. -/
theorem decode_cons {b : UInt8} (hb : b ≠ 0x25) (rest : List UInt8) :
    decode (b :: rest) = b :: decode rest := by
  rw [decode]
  rintro _ _ _ rfl
  exact absurd rfl hb

theorem decode_of_not_mem : ∀ {bytes : List UInt8}, 0x25 ∉ bytes → decode bytes = bytes
  | [], _ => by simp [decode]
  | b :: rest, h => by
    have hb : b ≠ 0x25 := fun e => h (e ▸ List.mem_cons_self)
    rw [decode_cons hb, decode_of_not_mem fun m => h (List.mem_cons_of_mem b m)]

theorem decode_of_percent_not_mem {cs : List Char} (hascii : ∀ c ∈ cs, c.toNat < 128)
    (h : '%' ∉ cs) : decode (octets (String.ofList cs)) = octets (String.ofList cs) := by
  refine decode_of_not_mem fun m => ?_
  rw [octets_of_ascii hascii] at m
  obtain ⟨c, hc, hvalue⟩ := List.mem_map.1 m
  have hcode : c.toNat = '%'.toNat := by
    have hnat := congrArg UInt8.toNat hvalue
    rw [UInt8.toNat_ofNat', Nat.mod_eq_of_lt (by have := hascii c hc; omega)] at hnat
    exact hnat
  exact h (Char.toNat_inj.1 hcode ▸ hc)

theorem encode_eq_self {escaped : Char → Bool} {cs : List Char}
    (h : ∀ c ∈ cs, ¬ (0x7F ≤ c.toNat ∨ c < ' ' ∨ escaped c = true)) : encode escaped cs = cs := by
  induction cs with
  | nil => rfl
  | cons c r ih =>
    obtain ⟨hc, hr⟩ := List.forall_mem_cons.1 h
    have ih := ih hr
    unfold encode at ih ⊢
    rw [List.flatMap_cons, if_neg hc, ih, List.singleton_append]

/-- An escape stands for the octet it was written for. -/
theorem decode_escapeOctet (b : UInt8) (rest : List UInt8) :
    decode ((escapeOctet b).map (fun c => UInt8.ofNat c.toNat) ++ rest) = b :: decode rest := by
  have hlt : b.toNat < 256 := b.toNat_lt
  have hsum : 16 * (b.toNat / 16) + b.toNat % 16 = b.toNat := by omega
  have hhigh := hexValue?_upperDigit (b.toNat / 16) (by omega)
  have hlow := hexValue?_upperDigit (b.toNat % 16) (by omega)
  simp only [escapeOctet, List.map_cons, List.map_nil, List.cons_append, List.nil_append]
  rw [show UInt8.ofNat '%'.toNat = 0x25 from rfl, decode, hhigh, hlow]
  simp only [hsum, UInt8.ofNat_toNat]

/-! ## Values -/

/-- The characters beside letters and digits that form values are written in. -/
def formMarks : List Char := ['*', '-', '.', '_', '+', '%']

theorem isPlain_formOctet : ∀ n < 256,
    (formOctet (UInt8.ofNat n)).all (isPlain formMarks) = true := by decide +kernel

theorem isPlain_of_mem_formEncode {s : String} {c : Char} (h : c ∈ formEncode s) :
    isPlain formMarks c = true := by
  obtain ⟨b, -, hc⟩ := List.mem_flatMap.1 h
  rw [← UInt8.ofNat_toNat (x := b)] at hc
  exact List.all_eq_true.1 (isPlain_formOctet b.toNat b.toNat_lt) c hc

theorem not_mem_formEncode {s : String} {c : Char} (hc : isPlain formMarks c = false) :
    c ∉ formEncode s := fun m => by
  rw [isPlain_of_mem_formEncode m] at hc
  cases hc

theorem bare_octet : ∀ n < 256, isBare (UInt8.ofNat n) = true →
    UInt8.ofNat (Char.ofNat n).toNat = UInt8.ofNat n ∧ Char.ofNat n ≠ '+' ∧ UInt8.ofNat n ≠ 0x25 := by
  decide +kernel

theorem upperDigit_ne_plus : ∀ n < 16, upperDigit n ≠ '+' := by decide

/-- The octets that are read where an octet stands in a form, with plus signs taken for blanks. -/
def formOctets (b : UInt8) : List UInt8 :=
  (formOctet b).map fun c => UInt8.ofNat (if c = '+' then ' ' else c).toNat

/-- An octet is read from however it stands in a form. -/
theorem decode_formOctets (b : UInt8) (rest : List UInt8) :
    decode (formOctets b ++ rest) = b :: decode rest := by
  have hlt : b.toNat < 256 := b.toNat_lt
  unfold formOctets formOctet
  split_ifs with hbare hblank
  · rw [← UInt8.ofNat_toNat (x := b)] at hbare
    obtain ⟨hback, hplus, hpercent⟩ := bare_octet b.toNat hlt hbare
    rw [UInt8.ofNat_toNat] at hback hpercent
    simp only [List.map_cons, List.map_nil, if_neg hplus, hback, List.singleton_append]
    exact decode_cons hpercent rest
  · subst hblank
    exact decode_cons (by decide) rest
  -- no plus sign stands in an escape, so that none is taken for a blank
  · have hplain : ∀ c ∈ escapeOctet b, c ≠ '+' := by
      have hhigh := upperDigit_ne_plus (b.toNat / 16) (by omega)
      have hlow := upperDigit_ne_plus (b.toNat % 16) (by omega)
      simp [escapeOctet, hhigh, hlow]
    rw [List.map_congr_left fun c hc => by rw [if_neg (hplain c hc)]]
    exact decode_escapeOctet b rest

/-- A form value is read as the text it was written for. -/
@[simp]
theorem formDecode_formEncode (s : String) : formDecode (formEncode s) = s := by
  have hoctets : ∀ bytes : List UInt8, decode (bytes.flatMap formOctets) = bytes := by
    intro bytes
    induction bytes with
    | nil => simp [decode]
    | cons b rest ih => rw [List.flatMap_cons, decode_formOctets, ih]
  have hascii : ∀ c ∈ (formEncode s).map fun c => if c = '+' then ' ' else c, c.toNat < 128 := by
    intro c hc
    obtain ⟨d, hd, rfl⟩ := List.mem_map.1 hc
    split_ifs
    · decide
    · exact toNat_of_isPlain (by decide) (isPlain_of_mem_formEncode hd)
  rw [formDecode, octets_of_ascii hascii, List.map_map, formEncode, List.map_flatMap]
  change lossy (decode ((octets s).flatMap formOctets)) = s
  rw [hoctets, lossy_octets]

example : formEncode "a b&c=é" = "a+b%26c%3D%C3%A9".toList := by decide

/-! ## Names and values -/

/-- Names and values written as a form are read as the same names and values. -/
@[simp]
theorem readForm_formPairs (pairs : List (String × String)) : readForm (formPairs pairs) = pairs := by
  have hparts : ∀ p ∈ pairs.map fun p => formEncode p.1 ++ '=' :: formEncode p.2, '&' ∉ p := by
    intro p hp
    obtain ⟨pair, -, rfl⟩ := List.mem_map.1 hp
    have hname : '&' ∉ formEncode pair.1 := not_mem_formEncode (by decide)
    have hvalue : '&' ∉ formEncode pair.2 := not_mem_formEncode (by decide)
    simp [hname, hvalue]
  have hne : ∀ p ∈ pairs.map fun p => formEncode p.1 ++ '=' :: formEncode p.2, p ≠ [] := by
    intro p hp
    obtain ⟨pair, -, rfl⟩ := List.mem_map.1 hp
    simp
  unfold readForm formPairs
  cases pairs with
  | nil => rfl
  | cons first more =>
    rw [split_join (by simp) hparts, List.filter_eq_self.2 (by simpa using hne), List.map_map]
    refine List.map_id'' (fun pair => ?_) _
    have hname : '=' ∉ formEncode pair.1 := not_mem_formEncode (by decide)
    simp [cut_append _ hname]

/-- A query in the characters of a form. -/
def IsFormText (query : List Char) : Prop := ∀ c ∈ query, isPlain (formMarks ++ ['&', '=']) c = true

theorem isFormText_formPairs (pairs : List (String × String)) : IsFormText (formPairs pairs) := by
  intro c hc
  rcases mem_join hc with rfl | ⟨p, hp, hc⟩
  · decide
  · obtain ⟨pair, -, rfl⟩ := List.mem_map.1 hp
    rcases List.mem_append.1 hc with hc | hc
    · exact isPlain_mono (by decide) (isPlain_of_mem_formEncode hc)
    · rcases List.mem_cons.1 hc with rfl | hc
      · decide
      · exact isPlain_mono (by decide) (isPlain_of_mem_formEncode hc)

end CoverageRun.Url
