/-
Plain hosts: a host name in characters that a URL takes as they are, and perhaps a port. They are read
as they are written, with the letters of the name made small and the scheme's own port left out.
-/
import CoverageRun.Proofs.Numeral.Whole
import CoverageRun.Proofs.Url.Form
import Mathlib.Data.List.TakeWhile

namespace CoverageRun.Url

open Text

/-! ## Hosts -/

/-- Whether a part of a host is a number, in decimal or hexadecimal digits. -/
def isNumber : List Char → Bool
  | [] => false
  | '0' :: 'x' :: digits | '0' :: 'X' :: digits => digits.all fun c => (hexValue? c).isSome
  | part => part.all Numeral.isDigit

/-- The characters of host names beside letters and digits. -/
def hostMarks : List Char := ['-', '_', '.']

/-- A host name in plain characters. No part of it is an encoded one, and the last is no number, which
would make it an address. -/
structure IsPlainHost (host : List Char) : Prop where
  ne_nil : host ≠ []
  plain : ∀ c ∈ host, isPlain hostMarks c = true
  notEncoded : ∀ label ∈ split '.' (host.map Char.toLower), startsWith "xn--".toList label = false
  notNumber : ∀ last ∈ (dottedParts (host.map Char.toLower)).getLast?, isNumber last = false

instance (host : List Char) : Decidable (IsPlainHost host) :=
  decidable_of_iff
    (host ≠ [] ∧ host.all (isPlain hostMarks) = true ∧
      (∀ label ∈ split '.' (host.map Char.toLower), startsWith "xn--".toList label = false) ∧
      ∀ last ∈ (dottedParts (host.map Char.toLower)).getLast?, isNumber last = false)
    ⟨fun ⟨hne, hplain, hencoded, hnumber⟩ => ⟨hne, List.all_eq_true.1 hplain, hencoded, hnumber⟩,
      fun h => ⟨h.ne_nil, List.all_eq_true.2 h.plain, h.notEncoded, h.notNumber⟩⟩

theorem isSome_hexValue?_of_foldlM : ∀ {digits : List Char} {v : Nat},
    (digits.foldlM (fun v c => (hexValue? c).map (16 * v + ·)) v).isSome = true →
      (digits.all fun c => (hexValue? c).isSome) = true
  | [], _, _ => rfl
  | c :: digits, v, h => by
    rw [List.foldlM_cons] at h
    cases hc : hexValue? c with
    | none => simp [hc] at h
    | some d =>
      have hrest : (digits.foldlM (fun v c => (hexValue? c).map (16 * v + ·)) (16 * v + d)).isSome = true := by
        simpa [hc] using h
      simp [hc, isSome_hexValue?_of_foldlM hrest]

theorem isNumber_of_digits {part : List Char} (hne : part ≠ [])
    (h : part.all Numeral.isDigit = true) : isNumber part = true := by
  have hx : Numeral.isDigit 'x' = false ∧ Numeral.isDigit 'X' = false := by decide
  unfold isNumber
  split
  · exact absurd rfl hne
  · simp [hx] at h
  · simp [hx] at h
  · exact h

/-- What is read as a number is one. -/
theorem isNumber_of_number4? {part : List Char} (h : (number4? part).isSome = true) :
    isNumber part = true := by
  unfold number4? at h
  split at h
  · cases h
  · exact isSome_hexValue?_of_foldlM h
  · exact isSome_hexValue?_of_foldlM h
  · rename_i c r hx hX
    simp only [Option.isSome_ite, List.all_eq_true, Bool.and_eq_true, decide_eq_true_eq] at h
    have hdigits : ∀ d ∈ '0' :: c :: r, Numeral.isDigit d = true := by
      intro d hd
      simp only [Numeral.isDigit, Bool.and_eq_true, decide_eq_true_eq]
      rcases List.mem_cons.1 hd with rfl | hd
      · decide
      · exact ⟨(h d hd).1, Char.le_trans (h d hd).2 (by decide)⟩
    exact isNumber_of_digits (List.cons_ne_nil _ _) (List.all_eq_true.2 hdigits)
  · rename_i hne _ _ _
    simp only [Option.isSome_ite] at h
    exact isNumber_of_digits hne h

variable {host : List Char}

theorem IsPlainHost.endsInNumber (h : IsPlainHost host) :
    endsInNumber (host.map Char.toLower) = false := by
  unfold Url.endsInNumber
  split
  · rfl
  · rfl
  · rename_i part hne hlast
    have hnumber : isNumber part = false := h.notNumber part hlast
    rw [Bool.eq_false_iff]
    intro hends
    rcases Bool.or_eq_true_iff.1 hends with hdigits | hread
    · exact absurd (isNumber_of_digits hne hdigits) (by simp [hnumber])
    · exact absurd (isNumber_of_number4? hread) (by simp [hnumber])

/-- The characters of a host as they are read. -/
theorem toLower_of_isPlain {c : Char} (h : isPlain hostMarks c = true) :
    isPlain hostMarks c.toLower = true ∧ c.toLower.toLower = c.toLower ∧
      Domain.isAscii c = true ∧ Domain.isForbidden c.toLower = false :=
  forall_isPlain (p := fun c => isPlain hostMarks c.toLower = true ∧
    c.toLower.toLower = c.toLower ∧ Domain.isAscii c = true ∧ Domain.isForbidden c.toLower = false)
    (by decide) (by decide +kernel) h

theorem IsPlainHost.toAscii? (h : IsPlainHost host) :
    Domain.toAscii? host = some (host.map Char.toLower) := by
  have hascii : host.all Domain.isAscii = true :=
    List.all_eq_true.2 fun c hc => (toLower_of_isPlain (h.plain c hc)).2.2.1
  have hcoded : ((split '.' (host.map Char.toLower)).any (startsWith Domain.codeMark)) = false :=
    List.any_eq_false.2 fun label hlabel => by
      rw [show Domain.codeMark = "xn--".toList from rfl, h.notEncoded label hlabel]
      decide
  have hallowed : (host.map Char.toLower).any Domain.isForbidden = false := by
    rw [List.any_map]
    exact List.any_eq_false.2 fun c hc => by
      simp [(toLower_of_isPlain (h.plain c hc)).2.2.2]
  unfold Domain.toAscii?
  simp [hascii, hcoded, hallowed]

theorem IsPlainHost.not_mem (h : IsPlainHost host) {c : Char}
    (hc : isPlain hostMarks c = false) : c ∉ host := fun m => by
  rw [h.plain c m] at hc
  cases hc

/-- A plain host is read in small letters. -/
theorem IsPlainHost.readHost (h : IsPlainHost host) :
    readHost host = .ok (.name (String.ofList (host.map Char.toLower))) := by
  have hbracket : bracketed? host = none := by
    unfold bracketed?
    split
    · exact absurd List.mem_cons_self (h.not_mem (c := '[') (by decide))
    · rfl
  have hascii : ∀ c ∈ host, c.toNat < 128 := fun c hc => toNat_of_isPlain (by decide) (h.plain c hc)
  have hdecode := decode_of_percent_not_mem hascii (h.not_mem (by decide))
  unfold Url.readHost
  rw [hbracket]
  -- nothing is escaped in the host, and its octets are text
  simp only [hdecode, ofOctets?_octets, String.toList_ofList, h.toAscii?]
  split
  · rename_i hempty
    cases hempty
  · rename_i hempty
    exact absurd (List.map_eq_nil_iff.1 (Option.some.inj hempty)) h.ne_nil
  · rename_i domain _ hdomain
    obtain rfl : host.map Char.toLower = domain := Option.some.inj hdomain
    simp only [h.endsInNumber]
    rfl

theorem IsPlainHost.map_toLower (h : IsPlainHost host) :
    (host.map Char.toLower).map Char.toLower = host.map Char.toLower := by
  rw [List.map_map]
  exact List.map_congr_left fun c hc => (toLower_of_isPlain (h.plain c hc)).2.1

/-- A plain host in small letters is one. -/
theorem IsPlainHost.lower (h : IsPlainHost host) : IsPlainHost (host.map Char.toLower) := by
  have hsmall := h.map_toLower
  refine ⟨by simpa using h.ne_nil, ?_, by rw [hsmall]; exact h.notEncoded,
    by rw [hsmall]; exact h.notNumber⟩
  intro c hc
  obtain ⟨d, hd, rfl⟩ := List.mem_map.1 hc
  exact (toLower_of_isPlain (h.plain d hd)).1

/-! ## Ports -/

/-- The digits of a port. -/
structure IsPort (digits : List Char) : Prop where
  decimal : ∀ c ∈ digits, Numeral.isDigit c = true
  bounded : Numeral.value digits ≤ 65535

instance (digits : List Char) : Decidable (IsPort digits) :=
  decidable_of_iff (digits.all Numeral.isDigit = true ∧ Numeral.value digits ≤ 65535)
    ⟨fun ⟨hdecimal, hbounded⟩ => ⟨List.all_eq_true.1 hdecimal, hbounded⟩,
      fun h => ⟨List.all_eq_true.2 h.decimal, h.bounded⟩⟩

/-- The port that digits give, unless there are none or the scheme uses it anyway. -/
def portNumber? (scheme : String) (digits : List Char) : Option Nat :=
  if digits = [] ∨ some (Numeral.value digits) = defaultPort? scheme then none
  else some (Numeral.value digits)

theorem IsPort.readPort {digits : List Char} (h : IsPort digits) (scheme : String) :
    readPort scheme digits = .ok (portNumber? scheme digits, []) := by
  have htake : digits.takeWhile Numeral.isDigit = digits := List.takeWhile_eq_self_iff.2 h.decimal
  have hbound : ¬ 65535 < Numeral.value digits := Nat.not_lt.2 h.bounded
  unfold Url.readPort portNumber?
  simp only [htake, List.drop_length, List.head?_nil, Option.any_none, hbound, or_self,
    Bool.false_eq_true, if_false]
  split <;> rfl

/-- A port behind its colon. -/
def portText : Option (List Char) → List Char
  | none => []
  | some digits => ':' :: digits

/-! ## Authorities -/

theorem isPlain_authority {port : Option (List Char)} (h : IsPlainHost host)
    (hport : IsPort (port.getD [])) {c : Char} (hc : c ∈ host ++ portText port) :
    isPlain (':' :: hostMarks) c = true := by
  rcases List.mem_append.1 hc with hc | hc
  · exact isPlain_mono (by decide) (h.plain c hc)
  · cases port with
    | none => cases hc
    | some digits =>
      rcases List.mem_cons.1 hc with rfl | hc
      · decide
      · simp [isPlain, hport.decimal c hc]

theorem takeHost_portText {port : Option (List Char)} : ∀ {host : List Char},
    (∀ c ∈ host, isPlain hostMarks c = true) →
      takeHost false (host ++ portText port) = (host, portText port)
  | [], _ => by
    cases port <;> simp [portText, takeHost]
  | c :: host, h => by
    obtain ⟨hc, hhost⟩ := List.forall_mem_cons.1 h
    have hmarks : c ≠ ':' ∧ c ≠ '[' ∧ c ≠ ']' :=
      forall_isPlain (p := fun c => c ≠ ':' ∧ c ≠ '[' ∧ c ≠ ']') (by decide) (by decide +kernel) hc
    simp [takeHost, hmarks, takeHost_portText hhost]

/-- The schemes of the web. -/
def IsWebScheme (scheme : String) : Prop := scheme = "http" ∨ scheme = "https"

theorem IsWebScheme.kind {scheme : String} (h : IsWebScheme scheme) :
    Kind.ofScheme scheme = .network := by
  rcases h with rfl | rfl <;> decide

/-- A plain host and its port are read as they are written. -/
theorem IsPlainHost.readAuthority {port : Option (List Char)} {scheme : String} (h : IsPlainHost host)
    (hscheme : IsWebScheme scheme) (hport : IsPort (port.getD [])) (rest : List Char) :
    readAuthority scheme (host ++ portText port) rest =
      .ok (⟨"", "", .name (String.ofList (host.map Char.toLower)),
        portNumber? scheme (port.getD [])⟩, []) := by
  have hspecial : (Kind.ofScheme scheme).isSpecial = true := by rw [hscheme.kind]; rfl
  have hat : '@' ∉ host ++ portText port := fun m =>
    absurd (isPlain_authority h hport m) (by decide)
  have hcut : cutLastAt? (host ++ portText port) = none := by
    unfold cutLastAt?
    rw [cut_eq_none_of_not_mem (List.mem_reverse.not.2 hat)]
  have hhead : (host ++ portText port).head? ≠ some '@' := fun e => hat (List.mem_of_head? e)
  have hnamed : (Host.name (String.ofList (host.map Char.toLower)) == Host.name "") = false := by
    refine beq_eq_false_iff_ne.2 fun e => h.ne_nil ?_
    have htext : String.ofList (host.map Char.toLower) = "" := Host.name.inj e
    simpa using htext
  have htail : (portText port).tail = port.getD [] := by cases port <;> rfl
  unfold Url.readAuthority
  simp only [hspecial, hcut, hhead, takeHost_portText h.plain, h.ne_nil, h.readHost, htail,
    hport.readPort, and_false, false_and, if_false, if_true, bind, Except.bind]
  simp only [hnamed, Bool.false_eq_true, false_and, if_false]
  rfl

end CoverageRun.Url
