/-
The grammar of tracefiles. Which lines are malformed is said without reading them: by how a line
begins, by whether a record is open before it and by whether its fields are what its tag asks for.
A line is rejected exactly if it is malformed.
-/
import CoverageRun.Proofs.Coverage.Counting
import CoverageRun.Proofs.Coverage.Statement
import CoverageRun.Proofs.Numeral.Decimal

namespace CoverageRun.Coverage

open Text Numeral

namespace Statement

/-! ## Fields -/

/-- A number of 32 bits, blanks around it aside. -/
def IsNumber (cs : List Char) : Prop := IsWhole (2 ^ 32) (trim cs)

/-- A hit count, blanks around it aside: a whole number of 64 bits, or any decimal number that is not
too large. -/
def IsHits (cs : List Char) : Prop := IsWhole (2 ^ 64) (trim cs) ∨ Decimal.IsFinite (trim cs)

/-- What the tags of data lines ask of the text behind their colon. -/
inductive Fits : List Char → List Char → Prop
  | lineHits {value line hits : List Char} {more : List (List Char)}
      (hfields : split ',' value = line :: hits :: more) (hline : IsNumber line)
      (hhits : IsHits hits) : Fits ['D', 'A'] value
  | branchTaken {value line block branch taken : List Char}
      (hfields : split ',' value = [line, block, branch, taken]) (hline : IsNumber line)
      (hblock : IsNumber block) (hbranch : IsNumber branch)
      (htaken : taken = ['-'] ∨ IsHits taken) : Fits ['B', 'R', 'D', 'A'] value
  | functionLine {line name : List Char} (hcomma : ',' ∉ line) (hline : IsNumber line) :
      Fits ['F', 'N'] (line ++ ',' :: name)
  | functionHits {hits name : List Char} (hcomma : ',' ∉ hits) (hhits : IsHits hits) :
      Fits ['F', 'N', 'D', 'A'] (hits ++ ',' :: name)

theorem isOk_readNumber_iff {field : Field} {cs : List Char} :
    (readNumber field cs).isOk = true ↔ IsNumber cs := by
  unfold IsNumber
  rw [← isSome_readBelow_iff, ← Option.isSome_map (f := UInt32.ofNat)]
  show _ ↔ (read32 (trim cs)).isSome = true
  simp only [readNumber]
  cases read32 (trim cs) <;> simp [Except.isOk, Except.toBool]

theorem isOk_readHits_iff {cs : List Char} : (readHits cs).isOk = true ↔ IsHits cs := by
  unfold IsHits
  rw [← isSome_readBelow_iff, ← Option.isSome_map (f := UInt64.ofNat), ← Decimal.isSome_toCount_iff]
  show _ ↔ (read64 (trim cs)).isSome = true ∨ _
  simp only [readHits]
  cases read64 (trim cs) <;> cases (Decimal.read (trim cs)).bind Decimal.toCount <;>
    simp [Except.isOk, Except.toBool]

theorem isOk_readTaken_iff {cs : List Char} :
    (readTaken cs).isOk = true ↔ cs = ['-'] ∨ IsHits cs := by
  unfold readTaken
  split
  · rename_i h
    exact iff_of_true rfl (.inl h)
  · rename_i h
    rw [← isOk_readHits_iff, or_iff_right h]
    cases readHits cs <;> rfl

/-- Work in two steps is done if both of them are. -/
theorem isOk_bind_iff {ε α β : Type} {x : Except ε α} {f : α → Except ε β} {P : Prop}
    (hf : ∀ a, (f a).isOk = true ↔ P) : (x >>= f).isOk = true ↔ x.isOk = true ∧ P := by
  cases x with
  | error e => exact iff_of_false (by intro h; cases h) (by rintro ⟨h, -⟩; cases h)
  | ok a => exact (hf a).trans (and_iff_right rfl).symm

theorem isOk_bind_pure {ε α β : Type} {x : Except ε α} {f : α → β} :
    (do return f (← x)).isOk = x.isOk := by
  cases x <;> rfl

/-! ### Values of data lines -/

theorem isOk_readLine_iff {value : List Char} :
    (readLine value).isOk = true ↔ Fits ['D', 'A'] value := by
  have hfits : Fits ['D', 'A'] value ↔ ∃ line hits more,
      split ',' value = line :: hits :: more ∧ IsNumber line ∧ IsHits hits := by
    constructor
    · rintro ⟨hfields, hline, hhits⟩
      exact ⟨_, _, _, hfields, hline, hhits⟩
    · rintro ⟨line, hits, more, hfields, hline, hhits⟩
      exact .lineHits hfields hline hhits
  rw [hfits]
  unfold readLine
  rcases split ',' value with _ | ⟨line, _ | ⟨hits, more⟩⟩
  · simp [throw, throwThe, MonadExceptOf.throw, Except.isOk, Except.toBool]
  · refine iff_of_false ?_ (by simp)
    rw [isOk_bind_iff (P := False) fun _ => iff_of_false (by intro h; cases h) id]
    exact And.right
  · simp only [List.cons.injEq]
    rw [isOk_bind_iff (P := IsHits hits) fun _ => by rw [isOk_bind_pure, isOk_readHits_iff],
      isOk_readNumber_iff]
    constructor
    · rintro ⟨hline, hhits⟩
      exact ⟨line, hits, more, ⟨rfl, rfl, rfl⟩, hline, hhits⟩
    · rintro ⟨_, _, _, ⟨rfl, rfl, rfl⟩, hline, hhits⟩
      exact ⟨hline, hhits⟩

theorem isOk_readBranch_iff {value : List Char} :
    (readBranch value).isOk = true ↔ Fits ['B', 'R', 'D', 'A'] value := by
  have hfits : Fits ['B', 'R', 'D', 'A'] value ↔ ∃ line block branch taken,
      split ',' value = [line, block, branch, taken] ∧ IsNumber line ∧ IsNumber block ∧
        IsNumber branch ∧ (taken = ['-'] ∨ IsHits taken) := by
    constructor
    · rintro ⟨⟩
      exact ⟨_, _, _, _, ‹_›, ‹_›, ‹_›, ‹_›, ‹_›⟩
    · rintro ⟨line, block, branch, taken, hfields, hline, hblock, hbranch, htaken⟩
      exact .branchTaken hfields hline hblock hbranch htaken
  rw [hfits]
  unfold readBranch
  split
  · rename_i line block branch taken hfields
    rw [hfields]
    rw [isOk_bind_iff (P := IsNumber block ∧ IsNumber branch ∧ (taken = ['-'] ∨ IsHits taken))
      fun _ => by
        rw [isOk_bind_iff (P := IsNumber branch ∧ (taken = ['-'] ∨ IsHits taken)) fun _ => by
          rw [isOk_bind_iff (P := taken = ['-'] ∨ IsHits taken) fun _ => by
            rw [isOk_bind_pure, isOk_readTaken_iff], isOk_readNumber_iff], isOk_readNumber_iff],
      isOk_readNumber_iff]
    constructor
    · intro h
      exact ⟨line, block, branch, taken, rfl, h⟩
    · rintro ⟨_, _, _, _, heq, h⟩
      cases heq
      exact h
  · rename_i hother
    refine iff_of_false (by intro h; cases h) ?_
    rintro ⟨line, block, branch, taken, hfields, -⟩
    exact hother line block branch taken hfields

/-- A value in two parts: it is read where there is a comma and what stands before it is read. -/
theorem isOk_cut_iff {value tag : List Char} {P : List Char → Prop} {r : Except Fault Statement}
    (hnone : cut ',' value = none → r.isOk = false)
    (hcut : ∀ front name, cut ',' value = some (front, name) → (r.isOk = true ↔ P front))
    (hfits : Fits tag value ↔ ∃ front name, value = front ++ ',' :: name ∧ ',' ∉ front ∧ P front) :
    r.isOk = true ↔ Fits tag value := by
  rw [hfits]
  cases h : cut ',' value with
  | none =>
    refine iff_of_false (by simp [hnone h]) ?_
    rintro ⟨front, name, rfl, hcomma, -⟩
    rw [cut_append name hcomma] at h
    cases h
  | some p =>
    obtain ⟨front, name⟩ := p
    rw [hcut front name h]
    constructor
    · intro hP
      exact ⟨front, name, eq_of_cut h, not_mem_of_cut h, hP⟩
    · rintro ⟨front', name', rfl, hcomma, hP⟩
      rw [cut_append name' hcomma] at h
      cases h
      exact hP

theorem isOk_readFunction_iff {value : List Char} :
    (readFunction value).isOk = true ↔ Fits ['F', 'N'] value := by
  refine isOk_cut_iff (P := IsNumber) (fun h => ?_) (fun front name h => ?_) ⟨?_, ?_⟩
  · rw [readFunction, h]; rfl
  · simp only [readFunction, h, isOk_bind_pure, isOk_readNumber_iff]
  · intro h
    cases h with
    | functionLine hcomma hline => exact ⟨_, _, rfl, hcomma, hline⟩
  · rintro ⟨front, name, rfl, hcomma, hline⟩
    exact .functionLine hcomma hline

theorem isOk_readCalls_iff {value : List Char} :
    (readCalls value).isOk = true ↔ Fits ['F', 'N', 'D', 'A'] value := by
  refine isOk_cut_iff (P := IsHits) (fun h => ?_) (fun front name h => ?_) ⟨?_, ?_⟩
  · rw [readCalls, h]; rfl
  · simp only [readCalls, h, isOk_bind_pure, isOk_readHits_iff]
  · intro h
    cases h with
    | functionHits hcomma hhits => exact ⟨_, _, rfl, hcomma, hhits⟩
  · rintro ⟨front, name, rfl, hcomma, hhits⟩
    exact .functionHits hcomma hhits

/-! ## Lines -/

/-- A line at which the record of a file begins. -/
def OpensRecord (line : List Char) : Prop := "SF:".toList <+: trim line

/-- A line at which the record of one file begins. -/
def Begins (line : List Char) (path : Path) : Prop := trim line = "SF:".toList ++ path.text.toList

theorem Begins.opensRecord {line : List Char} {path : Path} (h : Begins line path) :
    OpensRecord line := ⟨path.text.toList, h.symm⟩

/-- A line at which a record ends. -/
def EndsRecord (line : List Char) : Prop := trim line = "end_of_record".toList

/-- Whether a record is open behind some lines: one has begun, and none has ended since. -/
def RecordOpen (before : List (List Char)) : Prop :=
  ∃ front source since, before = front ++ source :: since ∧ OpensRecord source ∧
    ∀ line ∈ since, ¬ EndsRecord line

/-- The tags of lines that belong into a record. -/
def recordTags : List (List Char) := [['D', 'A'], ['B', 'R', 'D', 'A'], ['F', 'N'], ['F', 'N', 'D', 'A']]

/-- A line that has no place behind the lines before it: a record ends that is not open, the line is
neither an end nor has it a tag, or its tag is one of a record and no record is open or the value does
not fit. -/
structure Malformed (before : List (List Char)) (line : List Char) : Prop where
  notBlank : trim line ≠ []
  noSource : ¬ OpensRecord line
  fault : EndsRecord line ∧ ¬ RecordOpen before ∨
    ¬ EndsRecord line ∧ ':' ∉ trim line ∨
    ∃ tag value, trim line = tag ++ ':' :: value ∧ ':' ∉ tag ∧ tag ∈ recordTags ∧
      (¬ RecordOpen before ∨ ¬ Fits tag value)

/-- Lines none of which is malformed. -/
def WellFormed (lines : List (List Char)) : Prop :=
  ∀ before line after, lines = before ++ line :: after → ¬ Malformed before line

theorem wellFormed_nil : WellFormed [] := by
  intro before line after h
  simp at h

theorem wellFormed_snoc (lines : List (List Char)) (line : List Char) :
    WellFormed (lines ++ [line]) ↔ WellFormed lines ∧ ¬ Malformed lines line := by
  constructor
  · intro h
    refine ⟨fun before l after heq => h before l (after ++ [line]) (by simp [heq]), ?_⟩
    exact h lines line [] rfl
  · rintro ⟨hlines, hline⟩ before l after heq
    rcases List.eq_nil_or_concat after with rfl | ⟨after', last, rfl⟩
    · obtain ⟨rfl, hlast⟩ := List.append_inj' heq rfl
      cases hlast
      exact hline
    · rw [List.concat_eq_append, ← List.cons_append, ← List.append_assoc] at heq
      exact hlines before l after' (List.append_inj' heq rfl).1

theorem WellFormed.of_prefix {lines lines' : List (List Char)} (h : WellFormed lines)
    (hp : lines' <+: lines) : WellFormed lines' := by
  obtain ⟨rest, rfl⟩ := hp
  exact fun before line after heq => h before line (after ++ rest) (by simp [heq])

/-- Lines that are not well-formed have a first malformed line. -/
theorem exists_first_malformed (lines : List (List Char)) : ¬ WellFormed lines →
    ∃ front line rest, lines = front ++ line :: rest ∧ WellFormed front ∧ Malformed front line := by
  induction lines using List.reverseRecOn with
  | nil => exact fun h => absurd wellFormed_nil h
  | append_singleton lines line ih =>
    intro h
    by_cases hlines : WellFormed lines
    · rw [wellFormed_snoc, not_and_not_right] at h
      exact ⟨lines, line, [], rfl, hlines, h hlines⟩
    · obtain ⟨front, first, rest, rfl, hfront, hfirst⟩ := ih hlines
      exact ⟨front, first, rest ++ [line], by simp, hfront, hfirst⟩

theorem recordOpen_nil : ¬ RecordOpen [] := by
  rintro ⟨front, source, since, h, -⟩
  simp at h

theorem recordOpen_snoc (before : List (List Char)) (line : List Char) :
    RecordOpen (before ++ [line]) ↔ OpensRecord line ∨ RecordOpen before ∧ ¬ EndsRecord line := by
  constructor
  · rintro ⟨front, source, since, heq, hsource, hsince⟩
    rcases List.eq_nil_or_concat since with rfl | ⟨since', last, rfl⟩
    · obtain ⟨-, hlast⟩ := List.append_inj' heq rfl
      cases hlast
      exact .inl hsource
    · rw [List.concat_eq_append, ← List.cons_append, ← List.append_assoc] at heq
      obtain ⟨rfl, hlast⟩ := List.append_inj' heq rfl
      cases hlast
      exact .inr ⟨⟨front, source, since', rfl, hsource, fun l hl => hsince l (by simp [hl])⟩,
        hsince line (by simp)⟩
  · rintro (hsource | ⟨⟨front, source, since, rfl, hsource, hsince⟩, hend⟩)
    · exact ⟨before, line, [], rfl, hsource, by simp⟩
    · refine ⟨front, source, since ++ [line], by simp, hsource, fun l hl => ?_⟩
      rcases List.mem_append.1 hl with hl | hl
      · exact hsince l hl
      · rw [List.mem_singleton.1 hl]
        exact hend

/-- How a line is read, by how it begins. -/
theorem read_cases (line : List Char) :
    (trim line = [] ∧ read line = .blank) ∨
    (∃ path, Begins line path ∧ read line = .statement (.source path)) ∨
    (¬ OpensRecord line ∧ EndsRecord line ∧ read line = .statement .finish) ∨
    (trim line ≠ [] ∧ ¬ OpensRecord line ∧ ¬ EndsRecord line ∧ read line = readTagged (trim line)) := by
  by_cases hblank : trim line = []
  · exact .inl ⟨hblank, by simp [read, hblank]⟩
  cases hsource : after? "SF:".toList (trim line) with
  | some path =>
    refine .inr (.inl ⟨⟨String.ofList path⟩, ?_, ?_⟩)
    · simpa [Begins] using eq_of_after? hsource
    · simp only [read, if_neg hblank, hsource]
  | none =>
    have hopens : ¬ OpensRecord line := by
      rintro ⟨path, hpath⟩
      rw [← hpath, after?_append] at hsource
      cases hsource
    by_cases hend : trim line = "end_of_record".toList
    · exact .inr (.inr (.inl ⟨hopens, hend, by simp only [read, if_neg hblank, hsource, if_pos hend]⟩))
    · exact .inr (.inr (.inr ⟨hblank, hopens, hend,
        by simp only [read, if_neg hblank, hsource, if_neg hend]⟩))

theorem colon_not_mem_end : ':' ∉ "end_of_record".toList := by decide

/-- A statement that belongs into a record is refused where none is open, and only there. -/
def Belongs (s : Statement) : Prop :=
  ∀ isOpen, (Reading.statement s).fault? isOpen = if isOpen then none else some .dataBeforeSource

theorem isSome_fault?_ofFields {r : Except Fault Statement} (h : ∀ s, r = .ok s → s.Belongs)
    (isOpen : Bool) :
    ((Reading.ofFields r).fault? isOpen).isSome = true ↔ isOpen = false ∨ r.isOk = false := by
  cases r with
  | ok s =>
    rw [Reading.ofFields, h s rfl isOpen]
    cases isOpen <;> simp [Except.isOk, Except.toBool]
  | error fault => cases fault <;> cases isOpen <;> simp [Reading.ofFields, Reading.fault?, Except.isOk,
      Except.toBool]

/-- A line with a tag is read by its tag: as the tags of records ask, or as a remark. -/
theorem readTagged_cases {line tag value : List Char} (hline : line = tag ++ ':' :: value)
    (hcolon : ':' ∉ tag) :
    (tag ∈ recordTags ∧ ∃ r, readTagged line = .ofFields r ∧ (r.isOk = true ↔ Fits tag value) ∧
      ∀ s, r = .ok s → s.Belongs) ∨
    (tag ∉ recordTags ∧ ∃ t v, readTagged line = .statement (.remark t v)) := by
  unfold readTagged
  rw [hline, cut_append value hcolon]
  simp only
  split_ifs with hDA hBRDA hFN hFNDA
  · refine .inl ⟨by simp [hDA, recordTags], _, rfl, hDA ▸ isOk_readLine_iff, fun s hs => ?_⟩
    obtain ⟨line, hits, rfl⟩ := readLine_eq_ok hs
    exact fun _ => rfl
  · refine .inl ⟨by simp [hBRDA, recordTags], _, rfl, hBRDA ▸ isOk_readBranch_iff, fun s hs => ?_⟩
    obtain ⟨id, taken, rfl⟩ := readBranch_eq_ok hs
    exact fun _ => rfl
  · refine .inl ⟨by simp [hFN, recordTags], _, rfl, hFN ▸ isOk_readFunction_iff, fun s hs => ?_⟩
    obtain ⟨number, line, name, -, rfl⟩ := readFunction_eq_ok hs
    exact fun _ => rfl
  · refine .inl ⟨by simp [hFNDA, recordTags], _, rfl, hFNDA ▸ isOk_readCalls_iff, fun s hs => ?_⟩
    obtain ⟨number, hits, name, -, rfl⟩ := readCalls_eq_ok hs
    exact fun _ => rfl
  · refine .inr ⟨?_, _, _, rfl⟩
    simpa [recordTags] using ⟨hDA, hBRDA, hFN, hFNDA⟩

/-- A line is refused exactly if it is malformed. -/
theorem isSome_fault?_read_iff {before : List (List Char)} {isOpen : Bool}
    (hopen : isOpen = true ↔ RecordOpen before) (line : List Char) :
    ((read line).fault? isOpen).isSome = true ↔ Malformed before line := by
  have hclosed : isOpen = false ↔ ¬ RecordOpen before := by rw [← hopen, Bool.not_eq_true]
  rcases read_cases line with ⟨hblank, hread⟩ | ⟨path, hbegins, hread⟩ | ⟨hopens, hend, hread⟩ |
    ⟨hblank, hopens, hend, hread⟩ <;> rw [hread]
  · exact iff_of_false (by simp [Reading.fault?]) fun h => h.notBlank hblank
  · exact iff_of_false (by simp [Reading.fault?]) fun h => h.noSource hbegins.opensRecord
  · have hfault : ((Reading.statement .finish).fault? isOpen).isSome = true ↔ isOpen = false := by
      cases isOpen <;> simp [Reading.fault?]
    have hcolon : ':' ∉ trim line := hend.symm ▸ colon_not_mem_end
    rw [hfault, hclosed]
    constructor
    · intro h
      exact ⟨by rw [hend]; simp, hopens, .inl ⟨hend, h⟩⟩
    · rintro ⟨-, -, ⟨-, h⟩ | ⟨h, -⟩ | ⟨tag, value, heq, -⟩⟩
      · exact h
      · exact absurd hend h
      · exact absurd (heq ▸ by simp) hcolon
  · by_cases hcolon : ':' ∈ trim line
    · obtain ⟨tag, value, hline, htag⟩ := List.eq_append_cons_of_mem hcolon
      have hunique : ∀ {tag' value'}, trim line = tag' ++ ':' :: value' → ':' ∉ tag' →
          tag' = tag ∧ value' = value := by
        intro tag' value' heq htag'
        have hcut := cut_append value htag
        rw [← hline, heq, cut_append value' htag'] at hcut
        cases hcut
        exact ⟨rfl, rfl⟩
      rcases readTagged_cases hline htag with ⟨hmem, r, hr, hfits, hbelongs⟩ | ⟨hmem, t, v, hr⟩ <;> rw [hr]
      · rw [isSome_fault?_ofFields hbelongs, hclosed, ← Bool.not_eq_true, hfits]
        constructor
        · intro h
          exact ⟨hblank, hopens, .inr (.inr ⟨tag, value, hline, htag, hmem, h⟩)⟩
        · rintro ⟨-, -, ⟨h, -⟩ | ⟨-, h⟩ | ⟨tag', value', heq, htag', -, h⟩⟩
          · exact absurd h hend
          · exact absurd hcolon h
          · obtain ⟨rfl, rfl⟩ := hunique heq htag'
            exact h
      · refine iff_of_false (by simp [Reading.fault?]) ?_
        rintro ⟨-, -, ⟨h, -⟩ | ⟨-, h⟩ | ⟨tag', value', heq, htag', hmem', -⟩⟩
        · exact hend h
        · exact h hcolon
        · obtain ⟨rfl, rfl⟩ := hunique heq htag'
          exact hmem hmem'
    · refine iff_of_true ?_ ⟨hblank, hopens, .inr (.inl ⟨hend, hcolon⟩)⟩
      simp [readTagged, cut_eq_none_of_not_mem hcolon, Reading.fault?]

/-- A line with a tag, or without one, leaves open what was open. -/
theorem opens_readTagged (opened : Option Path) (line : List Char) :
    (readTagged line).opens opened = opened := by
  cases hr : readTagged line with
  | blank => rfl
  | broken fault => rfl
  | statement s =>
    by_cases hcolon : ':' ∈ line
    · obtain ⟨tag, value, hline, htag⟩ := List.eq_append_cons_of_mem hcolon
      rcases readTagged_cases hline htag with ⟨hmem, r, hr', -, hbelongs⟩ | ⟨hmem, t, v, hr'⟩
      · rw [hr] at hr'
        have hs := hbelongs s (ofFields_eq_statement hr'.symm) false
        cases s <;> first | rfl | cases hs
      · rw [hr] at hr'
        cases hr'
        rfl
    · rw [readTagged, cut_eq_none_of_not_mem hcolon] at hr
      cases hr

/-- A blank line neither begins nor ends a record. -/
theorem not_opens_of_blank {line : List Char} (h : trim line = []) :
    ¬ OpensRecord line ∧ ¬ EndsRecord line := by
  constructor
  · rintro ⟨path, hpath⟩
    rw [h] at hpath
    cases hpath
  · intro hend
    rw [EndsRecord, h] at hend
    cases hend

/-- Which lines leave a record open. -/
theorem isSome_opens_read_iff {before : List (List Char)} {opened : Option Path}
    (hopen : opened.isSome = true ↔ RecordOpen before) (line : List Char) :
    ((read line).opens opened).isSome = true ↔ RecordOpen (before ++ [line]) := by
  rw [recordOpen_snoc]
  rcases read_cases line with ⟨hblank, hread⟩ | ⟨path, hbegins, hread⟩ | ⟨hopens, hend, hread⟩ |
    ⟨-, hopens, hend, hread⟩ <;> rw [hread]
  · obtain ⟨hopens, hend⟩ := not_opens_of_blank hblank
    simp [Reading.opens, hopens, hend, hopen]
  · simp [Reading.opens, hbegins.opensRecord]
  · simp [Reading.opens, hopens, hend]
  · rw [opens_readTagged, hopen]
    simp [hopens, hend]

end Statement

end CoverageRun.Coverage
