/-
Written statements are read back: a statement whose texts can stand at the end of a line is one line,
and that line is read as the statement. In the other direction, whatever a line is read as has texts
that can stand at the end of a line.
-/
import CoverageRun.Coverage.Statement
import CoverageRun.Proofs.Numeral.Whole

namespace CoverageRun.Coverage.Statement

open Text Numeral

/-! ## Written lines -/

/-- How often a branch was taken, as it is written. -/
def takenText : Option UInt64 → List Char
  | some n => write n.toNat
  | none => ['-']

/-- The line a statement is written as, without the line feed. -/
def line : Statement → List Char
  | .source path => ['S', 'F'] ++ ':' :: path.text.toList
  | .finish => ['e', 'n', 'd', '_', 'o', 'f', '_', 'r', 'e', 'c', 'o', 'r', 'd']
  | .lineHits line hits => ['D', 'A'] ++ ':' :: (write line.toNat ++ ',' :: write hits.toNat)
  | .branchTaken id taken =>
    ['B', 'R', 'D', 'A'] ++ ':' :: (write id.line.toNat ++ ',' :: (write id.block.toNat ++
      ',' :: (write id.branch.toNat ++ ',' :: takenText taken)))
  | .functionLine line name => ['F', 'N'] ++ ':' :: (write line.toNat ++ ',' :: name.toList)
  | .functionHits hits name => ['F', 'N', 'D', 'A'] ++ ':' :: (write hits.toNat ++ ',' :: name.toList)
  | .remark tag value => tag.toList ++ ':' :: value.toList

theorem toList_number (n : Nat) : (number n).toList = write n := String.toList_ofList

/-- The pieces of a statement make its line and a line feed. -/
theorem flatMap_pieces (s : Statement) : s.pieces.flatMap String.toList = s.line ++ ['\n'] := by
  cases s with
  | branchTaken id taken => cases taken <;> simp [pieces, line, takenText, toList_number]
  | _ => simp [pieces, line, toList_number]

/-! ## Statements with lines of their own -/

/-- Tags that are no remarks. -/
def dataTags : List String := ["SF", "DA", "BRDA", "FN", "FNDA"]

/-- A tag of a remark: neither the tag of a data statement nor a text that reading would change. -/
structure RemarkTag (tag : String) : Prop where
  noData : tag ∉ dataTags
  noColon : ':' ∉ tag.toList
  noFeed : '\n' ∉ tag.toList
  noBlank : ∀ c, tag.toList.head? = some c → isBlank c = false

/-- A statement whose texts come through a line unchanged. -/
def Portable : Statement → Prop
  | .source path => LineTail path.text.toList
  | .functionLine _ name | .functionHits _ name => LineTail name.toList
  | .remark tag value => RemarkTag tag ∧ LineTail value.toList
  | _ => True

theorem lineTail_cons {c : Char} {l : List Char} (hc : isBlank c = false) (h : LineTail l) :
    LineTail (c :: l) := by
  have hfeed : '\n' ≠ c := by rintro rfl; exact absurd hc (by decide)
  refine ⟨by simp [hfeed, h.noFeed], fun d hd => ?_⟩
  cases l with
  | nil => simp at hd; exact hd ▸ hc
  | cons e l => exact h.noBlank d (by simpa using hd)

/-- A field with a separator behind it, before what ends the line. -/
theorem lineTail_field {c : Char} {a l : List Char} (ha : '\n' ∉ a) (hc : isBlank c = false)
    (h : LineTail l) : LineTail (a ++ c :: l) :=
  (lineTail_cons hc h).append (List.cons_ne_nil c l) ha

theorem lineTail_takenText (taken : Option UInt64) : LineTail (takenText taken) := by
  cases taken with
  | some n => exact lineTail_write n.toNat
  | none => exact lineTail_cons (by decide) .nil

theorem lineTail_number (n : Nat) {c : Char} {l : List Char} (hc : isBlank c = false)
    (h : LineTail l) : LineTail (write n ++ c :: l) :=
  lineTail_field (not_mem_write (by decide)) hc h

/-- What follows the tag of a data statement or a remark can end a line. -/
theorem lineTail_line {s : Statement} (h : s.Portable) : LineTail s.line := by
  cases s with
  | source path => exact lineTail_field (by decide) (by decide) h
  | finish => exact (by decide : LineTail Statement.finish.line)
  | lineHits line hits =>
    exact lineTail_field (by decide) (by decide) (lineTail_number _ (by decide) (lineTail_write _))
  | branchTaken id taken =>
    exact lineTail_field (by decide) (by decide) (lineTail_number _ (by decide)
      (lineTail_number _ (by decide) (lineTail_number _ (by decide) (lineTail_takenText taken))))
  | functionLine line name =>
    exact lineTail_field (by decide) (by decide) (lineTail_number _ (by decide) h)
  | functionHits hits name =>
    exact lineTail_field (by decide) (by decide) (lineTail_number _ (by decide) h)
  | remark tag value => exact lineTail_field h.1.noFeed (by decide) h.2

/-! ## Reading fields back -/

theorem readNumber_write (field : Field) (n : UInt32) :
    readNumber field (write n.toNat) = .ok n := by
  simp [readNumber, trim_write]

theorem readHits_write (n : UInt64) : readHits (write n.toNat) = .ok n := by
  simp [readHits, trim_write]

theorem readTaken_takenText (taken : Option UInt64) : readTaken (takenText taken) = .ok taken := by
  cases taken with
  | none => rfl
  | some n =>
    have hne : write n.toNat ≠ ['-'] := fun h =>
      not_mem_write (n := n.toNat) (c := '-') (by decide) (h ▸ List.mem_cons_self)
    simp [readTaken, takenText, hne, readHits_write, Except.map]

theorem comma_not_mem_write (n : Nat) : ',' ∉ write n := not_mem_write (by decide)

theorem readLine_write (line : UInt32) (hits : UInt64) :
    readLine (write line.toNat ++ ',' :: write hits.toNat) = .ok (.lineHits line hits) := by
  simp only [readLine, split_append _ (comma_not_mem_write _), split_of_not_mem (comma_not_mem_write _),
    readNumber_write, readHits_write]
  rfl

theorem readBranch_write (id : BranchId) (taken : Option UInt64) :
    readBranch (write id.line.toNat ++ ',' :: (write id.block.toNat ++
      ',' :: (write id.branch.toNat ++ ',' :: takenText taken))) = .ok (.branchTaken id taken) := by
  have htaken : ',' ∉ takenText taken := by
    cases taken with
    | some n => exact comma_not_mem_write n.toNat
    | none => decide
  simp only [readBranch, split_append _ (comma_not_mem_write _), split_of_not_mem htaken,
    readNumber_write, readTaken_takenText]
  rfl

theorem readFunction_write (line : UInt32) (name : String) :
    readFunction (write line.toNat ++ ',' :: name.toList) = .ok (.functionLine line name) := by
  simp only [readFunction, cut_append _ (comma_not_mem_write _), readNumber_write, String.ofList_toList]
  rfl

theorem readCalls_write (hits : UInt64) (name : String) :
    readCalls (write hits.toNat ++ ',' :: name.toList) = .ok (.functionHits hits name) := by
  simp only [readCalls, cut_append _ (comma_not_mem_write _), readHits_write, String.ofList_toList]
  rfl

/-! ## Reading lines back -/

/-- A line with a tag that is not `SF` is read by its tag. -/
theorem read_tagged {tag value : List Char} (hcolon : ':' ∉ tag) (hsource : tag ≠ "SF".toList)
    (hfirst : ∀ c, tag.head? = some c → isBlank c = false) (htail : LineTail (tag ++ ':' :: value)) :
    read (tag ++ ':' :: value) = readTagged (tag ++ ':' :: value) := by
  have htrim : trim (tag ++ ':' :: value) = tag ++ ':' :: value := by
    apply trim_eq_self _ htail.noBlank
    intro c hc
    cases tag with
    | nil => simp at hc; exact hc ▸ by decide
    | cons d tag => exact hfirst c (by simpa using hc)
  have hafter : after? "SF:".toList (tag ++ ':' :: value) = none := by
    cases h : after? "SF:".toList (tag ++ ':' :: value) with
    | none => rfl
    | some rest =>
      -- both cuts at the first colon give the tag
      have h1 := cut_append value hcolon
      have h2 := cut_append (l := "SF".toList) rest (by decide : ':' ∉ "SF".toList)
      rw [eq_of_after? h] at h1
      exact absurd (Prod.mk.inj (Option.some.inj (h1.symm.trans h2))).1 hsource
  have hend : tag ++ ':' :: value ≠ "end_of_record".toList := fun h => by
    have : ':' ∈ "end_of_record".toList := h ▸ by simp
    exact absurd this (by decide)
  simp only [read, htrim, hafter]
  rw [if_neg (by simp), if_neg hend]

theorem read_source {path : Path} (h : LineTail path.text.toList) :
    read (Statement.source path).line = .statement (.source path) := by
  have htail : LineTail (Statement.source path).line := lineTail_line h
  have htrim : trim (Statement.source path).line = (Statement.source path).line :=
    trim_eq_self (by simp [line]; decide) htail.noBlank
  have hafter : after? "SF:".toList (Statement.source path).line = some path.text.toList :=
    after?_append ['S', 'F', ':'] path.text.toList
  simp only [read, htrim, hafter, String.ofList_toList]
  rw [if_neg (by simp [line])]

/-- The line of a statement whose texts come through unchanged is read as that statement. -/
theorem read_line {s : Statement} (h : s.Portable) : read s.line = .statement s := by
  have htail : LineTail s.line := lineTail_line h
  cases s with
  | source path => exact read_source h
  | finish => decide
  | lineHits line hits =>
    simp only [Statement.line] at htail ⊢
    rw [read_tagged (by decide) (by decide) (by simp; decide) htail, readTagged,
      cut_append _ (by decide)]
    simp [readLine_write, Reading.ofFields]
  | branchTaken id taken =>
    simp only [Statement.line] at htail ⊢
    rw [read_tagged (by decide) (by decide) (by simp; decide) htail, readTagged,
      cut_append _ (by decide)]
    simp [readBranch_write, Reading.ofFields]
  | functionLine line name =>
    simp only [Statement.line] at htail ⊢
    rw [read_tagged (by decide) (by decide) (by simp; decide) htail, readTagged,
      cut_append _ (by decide)]
    simp [readFunction_write, Reading.ofFields]
  | functionHits hits name =>
    simp only [Statement.line] at htail ⊢
    rw [read_tagged (by decide) (by decide) (by simp; decide) htail, readTagged,
      cut_append _ (by decide)]
    simp [readCalls_write, Reading.ofFields]
  | remark tag value =>
    obtain ⟨htag, hvalue⟩ := h
    have hne : ∀ t ∈ dataTags, tag.toList ≠ t.toList := fun t ht e =>
      htag.noData (String.toList_injective e ▸ ht)
    simp only [dataTags, List.mem_cons, List.not_mem_nil, or_false, forall_eq_or_imp, forall_eq] at hne
    obtain ⟨hSF, hDA, hBRDA, hFN, hFNDA⟩ := hne
    simp only [Statement.line] at htail ⊢
    rw [read_tagged htag.noColon hSF htag.noBlank htail, readTagged, cut_append _ htag.noColon]
    simp only [if_neg hDA, if_neg hBRDA, if_neg hFN, if_neg hFNDA, String.ofList_toList]

/-! ## What is read -/

theorem readFunction_eq_ok {value : List Char} {s : Statement} (h : readFunction value = .ok s) :
    ∃ number line name, value = number ++ ',' :: name ∧ s = .functionLine line (String.ofList name) := by
  unfold readFunction at h
  split at h
  · rename_i number name hcut
    cases hn : readNumber .functionLine number with
    | error e => rw [hn] at h; cases h
    | ok line => rw [hn] at h; cases h; exact ⟨number, line, name, eq_of_cut hcut, rfl⟩
  · cases h

theorem readCalls_eq_ok {value : List Char} {s : Statement} (h : readCalls value = .ok s) :
    ∃ number hits name, value = number ++ ',' :: name ∧ s = .functionHits hits (String.ofList name) := by
  unfold readCalls at h
  split at h
  · rename_i number name hcut
    cases hn : readHits number with
    | error e => rw [hn] at h; cases h
    | ok hits => rw [hn] at h; cases h; exact ⟨number, hits, name, eq_of_cut hcut, rfl⟩
  · cases h

theorem readLine_eq_ok {value : List Char} {s : Statement} (h : readLine value = .ok s) :
    ∃ line hits, s = .lineHits line hits := by
  unfold readLine at h
  split at h
  · rename_i number rest _
    cases hn : readNumber .hitLine number with
    | error e => rw [hn] at h; cases h
    | ok line =>
      cases rest with
      | nil => rw [hn] at h; cases h
      | cons text _ =>
        cases hh : readHits text with
        | error e => simp only [hn, hh] at h; cases h
        | ok hits => simp only [hn, hh] at h; cases h; exact ⟨line, hits, rfl⟩
  · cases h

theorem readBranch_eq_ok {value : List Char} {s : Statement} (h : readBranch value = .ok s) :
    ∃ id taken, s = .branchTaken id taken := by
  unfold readBranch at h
  split at h
  · rename_i line block branch taken _
    cases h1 : readNumber .branchLine line with
    | error e => simp only [h1] at h; cases h
    | ok line =>
      cases h2 : readNumber .branchBlock block with
      | error e => simp only [h1, h2] at h; cases h
      | ok block =>
        cases h3 : readNumber .branchNumber branch with
        | error e => simp only [h1, h2, h3] at h; cases h
        | ok branch =>
          cases h4 : readTaken taken with
          | error e => simp only [h1, h2, h3, h4] at h; cases h
          | ok taken => simp only [h1, h2, h3, h4] at h; cases h; exact ⟨_, _, rfl⟩
  · cases h

theorem ofFields_eq_statement {r : Except Fault Statement} {s : Statement}
    (h : Reading.ofFields r = .statement s) : r = .ok s := by
  cases r with
  | error e => cases h
  | ok t => cases h; rfl

/-- What a tagged line is read as: its name or its remark stands at the end of it. -/
theorem portable_of_readTagged {l : List Char} {s : Statement} (htail : LineTail l)
    (hfirst : ∀ c, l.head? = some c → isBlank c = false) (hsource : after? "SF:".toList l = none)
    (h : readTagged l = .statement s) : s.Portable := by
  unfold readTagged at h
  split at h
  · cases h
  · rename_i tag value hcut
    have hl : l = tag ++ ':' :: value := eq_of_cut hcut
    have hvalue : LineTail value := by
      rw [hl, ← List.singleton_append (l := value), ← List.append_assoc] at htail
      exact htail.of_append
    have hname : ∀ number name, value = number ++ ',' :: name → LineTail name := by
      intro number name hv
      rw [hv, ← List.singleton_append (l := name), ← List.append_assoc] at hvalue
      exact hvalue.of_append
    split at h
    · obtain ⟨line, hits, rfl⟩ := readLine_eq_ok (ofFields_eq_statement h); trivial
    split at h
    · obtain ⟨id, taken, rfl⟩ := readBranch_eq_ok (ofFields_eq_statement h); trivial
    split at h
    · obtain ⟨number, line, name, hv, rfl⟩ := readFunction_eq_ok (ofFields_eq_statement h)
      simpa [Portable] using hname number name hv
    split at h
    · obtain ⟨number, hits, name, hv, rfl⟩ := readCalls_eq_ok (ofFields_eq_statement h)
      simpa [Portable] using hname number name hv
    rename_i hDA hBRDA hFN hFNDA
    cases h
    have hSF : tag ≠ "SF".toList := by
      rintro rfl
      rw [hl, show "SF".toList ++ ':' :: value = "SF:".toList ++ value by simp, after?_append] at hsource
      cases hsource
    have hcolon : ':' ∉ tag := not_mem_of_cut hcut
    have hne : ∀ t ∈ dataTags, tag ≠ t.toList := by
      simp only [dataTags, List.mem_cons, List.not_mem_nil, or_false, forall_eq_or_imp, forall_eq]
      exact ⟨hSF, hDA, hBRDA, hFN, hFNDA⟩
    refine ⟨⟨fun hm => hne _ hm String.toList_ofList.symm, by simpa using hcolon, ?_, ?_⟩,
      by simpa using hvalue⟩
    · rw [String.toList_ofList]
      exact fun m => htail.noFeed (hl ▸ List.mem_append_left _ m)
    · rw [String.toList_ofList]
      intro c hc
      exact hfirst c (by rw [hl, List.head?_append, hc, Option.some_or])

/-- The texts of a statement that a line is read as come through a line unchanged. -/
theorem portable_of_read {l : List Char} {s : Statement} (hfeed : '\n' ∉ l)
    (h : read l = .statement s) : s.Portable := by
  have htail : LineTail (trim l) := lineTail_trim hfeed
  simp only [read] at h
  split at h
  · cases h
  split at h
  · rename_i path hpath
    cases h
    rw [eq_of_after? hpath] at htail
    simpa [Portable] using htail.of_append
  split at h
  · cases h; trivial
  · exact portable_of_readTagged htail (fun _ => not_isBlank_head_trim) ‹_› h

end CoverageRun.Coverage.Statement
