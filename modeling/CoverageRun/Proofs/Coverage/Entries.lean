/-
The entries of a text, said of its lines and not of how they are read: which file's record is open
behind some lines, which number and which hit count a field writes, what a line with the tag of a
record brings to which line, branch or function. A report is read from a text exactly where the sums
of its entries have a place in 64 bits, and then it has the files that the text names and at each key
of each of them what the entries there amount to.
-/
import CoverageRun.Proofs.Coverage.Acceptance
import CoverageRun.Proofs.Numeral.Rounding

namespace CoverageRun.Coverage

open Text Numeral
open Statement (Reading Begins OpensRecord EndsRecord RecordOpen WellFormed recordTags)

namespace Statement

/-! ## Fields -/

/-- The hit count that a field writes, blanks around it aside. A whole number that 64 bits hold is the
count itself; any other decimal number, unless it is too large, is rounded and cut off. -/
inductive WritesHits (field : List Char) : ℕ → Prop
  | whole {n : ℕ} (hwhole : WritesWhole (trim field) n) (hn : n < 2 ^ 64) : WritesHits field n
  | decimal {negative : Bool} {r : List Char} {n : ℕ} {power : ℤ}
      (hno : ∀ n < 2 ^ 64, ¬ WritesWhole (trim field) n)
      (hsign : Decimal.Signed negative (trim field) r) (hwrites : Decimal.WritesMagnitude r n power)
      (hsize : (n : ℚ) * (10 : ℚ) ^ power < Binary64.finiteLimit) :
      WritesHits field (Decimal.countOf negative ((n : ℚ) * (10 : ℚ) ^ power))

/-- How often a branch was taken: a dash is no count. -/
inductive WritesTaken (field : List Char) : Option UInt64 → Prop
  | dash (hdash : field = ['-']) : WritesTaken field none
  | hits {count : UInt64} (hhits : WritesHits field count.toNat) : WritesTaken field (some count)

/-- What a line brings by its tag and the text behind the colon: a count, or none, at a key. -/
inductive Brings : List Char → List Char → Key → Option UInt64 → Prop
  | lineHits {value line hits : List Char} {more : List (List Char)} {number : UInt32}
      {count : UInt64} (hfields : split ',' value = line :: hits :: more)
      (hline : WritesWhole (trim line) number.toNat) (hhits : WritesHits hits count.toNat) :
      Brings ['D', 'A'] value (.line number) (some count)
  | branchTaken {value line block branch taken : List Char} {id : BranchId} {count : Option UInt64}
      (hfields : split ',' value = [line, block, branch, taken])
      (hline : WritesWhole (trim line) id.line.toNat)
      (hblock : WritesWhole (trim block) id.block.toNat)
      (hbranch : WritesWhole (trim branch) id.branch.toNat) (htaken : WritesTaken taken count) :
      Brings ['B', 'R', 'D', 'A'] value (.branch id) count
  | functionLine {line : List Char} {number : UInt32} {name : String} (hcomma : ',' ∉ line)
      (hline : WritesWhole (trim line) number.toNat) :
      Brings ['F', 'N'] (line ++ ',' :: name.toList) (.function name) (some 0)
  | functionHits {hits : List Char} {count : UInt64} {name : String} (hcomma : ',' ∉ hits)
      (hhits : WritesHits hits count.toNat) :
      Brings ['F', 'N', 'D', 'A'] (hits ++ ',' :: name.toList) (.function name) (some count)

theorem Brings.mem_recordTags {tag value : List Char} {key : Key} {count : Option UInt64}
    (h : Brings tag value key count) : tag ∈ recordTags := by
  cases h <;> simp [recordTags]

theorem colon_not_mem_of_mem_recordTags {tag : List Char} (h : tag ∈ recordTags) : ':' ∉ tag := by
  revert tag
  decide

theorem readNumber_eq_ok_iff {field : Field} {cs : List Char} {n : UInt32} :
    readNumber field cs = .ok n ↔ WritesWhole (trim cs) n.toNat := by
  rw [← read32_eq_some_iff, readNumber]
  cases read32 (trim cs) <;> simp

theorem readHits_eq_ok_iff {field : List Char} {count : UInt64} :
    readHits field = .ok count ↔ WritesHits field count.toNat := by
  have hnone : read64 (trim field) = none ↔ ∀ n < 2 ^ 64, ¬ WritesWhole (trim field) n := by
    rw [← Option.not_isSome_iff_eq_none, read64, Option.isSome_map, isSome_readBelow_iff, isWhole_iff]
    simp only [not_exists, not_and]
    rfl
  unfold readHits
  constructor
  · intro h
    dsimp only at h
    split at h
    · rename_i n hn
      cases h
      exact .whole (read64_eq_some_iff.1 hn) count.toNat_lt
    rename_i hno
    split at h
    · rename_i n hn
      cases h
      obtain ⟨d, hd, hcount⟩ := Option.bind_eq_some_iff.1 hn
      cases d with
      | finite negative n power =>
        obtain ⟨hsize, hvalue⟩ := Decimal.toCount_eq_some_iff.1 hcount
        obtain ⟨r, hsign, hwrites⟩ := Decimal.read_eq_finite_iff.1 hd
        exact hvalue ▸ .decimal (hnone.1 hno) hsign hwrites hsize
      | _ => cases hcount
    · cases h
  · intro h
    generalize hvalue : count.toNat = n at h
    cases h with
    | whole hwhole =>
      rw [← hvalue] at hwhole
      simp only [read64_eq_some_iff.2 hwhole]
    | decimal hno hsign hwrites hsize =>
      have hcount := Decimal.toCount_eq_some_iff.2 ⟨hsize, hvalue⟩
      simp only [hnone.2 hno, Decimal.read_eq_finite_iff.2 ⟨_, hsign, hwrites⟩, Option.bind_some,
        hcount]

theorem readTaken_eq_ok_iff {field : List Char} {count : Option UInt64} :
    readTaken field = .ok count ↔ WritesTaken field count := by
  have hmap : (readHits field).map some = .ok count ↔
      ∃ n, readHits field = .ok n ∧ some n = count := by
    cases readHits field <;> simp [Except.map]
  unfold readTaken
  constructor
  · intro h
    split at h
    · rename_i hdash
      cases h
      exact .dash hdash
    · obtain ⟨n, hn, rfl⟩ := hmap.1 h
      exact .hits (readHits_eq_ok_iff.1 hn)
  · rintro (hdash | hhits)
    · rw [if_pos hdash]
    · have hread := readHits_eq_ok_iff.2 hhits
      have hdash : field ≠ ['-'] := by
        rintro rfl
        cases hread
      rw [if_neg hdash, hmap]
      exact ⟨_, hread, rfl⟩

/-! ## Lines with the tag of a record -/

/-- What fields that are read count. -/
def Counts (r : Except Fault Statement) (key : Key) (count : Option UInt64) : Prop :=
  ∃ s, r = .ok s ∧ s.counted? = some (key, count)

theorem counts_ok {s : Statement} {key : Key} {count : Option UInt64} :
    Counts (.ok s) key count ↔ s.counted? = some (key, count) := by
  simp [Counts]

theorem not_counts_error {fault : Fault} {key : Key} {count : Option UInt64} :
    ¬ Counts (.error fault) key count := by
  simp [Counts]

/-- Fields that are read one after another count what the last of them leaves to count. -/
theorem counts_bind {α : Type} {x : Except Fault α} {f : α → Except Fault Statement} {key : Key}
    {count : Option UInt64} :
    Counts (x >>= f) key count ↔ ∃ a, x = .ok a ∧ Counts (f a) key count := by
  cases x with
  | error fault => exact iff_of_false not_counts_error (by simp)
  | ok a => simp [bind, Except.bind]

theorem counts_readLine_iff {value : List Char} {key : Key} {count : Option UInt64} :
    Counts (readLine value) key count ↔ Brings ['D', 'A'] value key count := by
  constructor
  · intro h
    unfold readLine at h
    split at h
    · rename_i line rest hfields
      obtain ⟨number, hline, h⟩ := counts_bind.1 h
      split at h
      · obtain ⟨hits, hhits, h⟩ := counts_bind.1 h
        cases counts_ok.1 h
        exact .lineHits hfields (readNumber_eq_ok_iff.1 hline) (readHits_eq_ok_iff.1 hhits)
      · exact absurd h not_counts_error
    · exact absurd h not_counts_error
  · rintro ⟨hfields, hline, hhits⟩
    unfold readLine
    rw [hfields]
    exact counts_bind.2 ⟨_, readNumber_eq_ok_iff.2 hline,
      counts_bind.2 ⟨_, readHits_eq_ok_iff.2 hhits, counts_ok.2 rfl⟩⟩

theorem counts_readBranch_iff {value : List Char} {key : Key} {count : Option UInt64} :
    Counts (readBranch value) key count ↔ Brings ['B', 'R', 'D', 'A'] value key count := by
  constructor
  · intro h
    unfold readBranch at h
    split at h
    · rename_i line block branch taken hfields
      obtain ⟨_, hline, h⟩ := counts_bind.1 h
      obtain ⟨_, hblock, h⟩ := counts_bind.1 h
      obtain ⟨_, hbranch, h⟩ := counts_bind.1 h
      obtain ⟨_, htaken, h⟩ := counts_bind.1 h
      cases counts_ok.1 h
      exact .branchTaken hfields (readNumber_eq_ok_iff.1 hline) (readNumber_eq_ok_iff.1 hblock)
        (readNumber_eq_ok_iff.1 hbranch) (readTaken_eq_ok_iff.1 htaken)
    · exact absurd h not_counts_error
  · intro h
    cases h with
    | branchTaken hfields hline hblock hbranch htaken =>
      unfold readBranch
      rw [hfields]
      exact counts_bind.2 ⟨_, readNumber_eq_ok_iff.2 hline,
        counts_bind.2 ⟨_, readNumber_eq_ok_iff.2 hblock,
          counts_bind.2 ⟨_, readNumber_eq_ok_iff.2 hbranch,
            counts_bind.2 ⟨_, readTaken_eq_ok_iff.2 htaken, counts_ok.2 rfl⟩⟩⟩⟩

theorem counts_readFunction_iff {value : List Char} {key : Key} {count : Option UInt64} :
    Counts (readFunction value) key count ↔ Brings ['F', 'N'] value key count := by
  constructor
  · intro h
    unfold readFunction at h
    split at h
    · rename_i line name hcut
      obtain ⟨_, hline, h⟩ := counts_bind.1 h
      cases counts_ok.1 h
      have hbrings : Brings ['F', 'N'] (line ++ ',' :: (String.ofList name).toList)
          (.function (String.ofList name)) (some 0) :=
        .functionLine (not_mem_of_cut hcut) (readNumber_eq_ok_iff.1 hline)
      rwa [String.toList_ofList, ← eq_of_cut hcut] at hbrings
    · exact absurd h not_counts_error
  · intro h
    cases h with
    | functionLine hcomma hline =>
      unfold readFunction
      rw [cut_append _ hcomma]
      refine counts_bind.2 ⟨_, readNumber_eq_ok_iff.2 hline, counts_ok.2 ?_⟩
      rw [String.ofList_toList]
      rfl

theorem counts_readCalls_iff {value : List Char} {key : Key} {count : Option UInt64} :
    Counts (readCalls value) key count ↔ Brings ['F', 'N', 'D', 'A'] value key count := by
  constructor
  · intro h
    unfold readCalls at h
    split at h
    · rename_i hits name hcut
      obtain ⟨count, hhits, h⟩ := counts_bind.1 h
      cases counts_ok.1 h
      have hbrings : Brings ['F', 'N', 'D', 'A'] (hits ++ ',' :: (String.ofList name).toList)
          (.function (String.ofList name)) (some count) :=
        .functionHits (not_mem_of_cut hcut) (readHits_eq_ok_iff.1 hhits)
      rwa [String.toList_ofList, ← eq_of_cut hcut] at hbrings
    · exact absurd h not_counts_error
  · intro h
    cases h with
    | functionHits hcomma hhits =>
      unfold readCalls
      rw [cut_append _ hcomma]
      refine counts_bind.2 ⟨_, readHits_eq_ok_iff.2 hhits, counts_ok.2 ?_⟩
      rw [String.ofList_toList]
      rfl

/-- The entry of fields that are read where the record of a file is open. -/
theorem entry?_ofFields_iff {r : Except Fault Statement} {path : Path} {e : Entry} :
    Reading.entry? (some path) (Reading.ofFields r) = some e ↔
      Counts r e.key e.count ∧ e.file = path.parts := by
  cases r with
  | error fault => exact iff_of_false (by simp [Reading.ofFields, Reading.entry?]) fun h =>
      not_counts_error h.1
  | ok s =>
    obtain ⟨file, key, count⟩ := e
    rw [counts_ok]
    simp only [Reading.ofFields, Reading.entry?, Option.bind_some, Option.map_eq_some_iff,
      Entry.mk.injEq]
    constructor
    · rintro ⟨c, hc, rfl, rfl, rfl⟩
      exact ⟨hc, rfl⟩
    · rintro ⟨hc, rfl⟩
      exact ⟨_, hc, rfl, rfl, rfl⟩

/-- The entry of a line with a tag where the record of a file is open. -/
theorem entry?_readTagged_iff {line : List Char} {path : Path} {e : Entry} :
    Reading.entry? (some path) (readTagged line) = some e ↔
      ∃ tag value, line = tag ++ ':' :: value ∧ Brings tag value e.key e.count ∧
        e.file = path.parts := by
  by_cases hcolon : ':' ∈ line
  · obtain ⟨tag, value, rfl, htag⟩ := List.eq_append_cons_of_mem hcolon
    -- there is one way to cut a line at its first colon
    have hsame : (∃ tag' value', tag ++ ':' :: value = tag' ++ ':' :: value' ∧
        Brings tag' value' e.key e.count ∧ e.file = path.parts) ↔
        Brings tag value e.key e.count ∧ e.file = path.parts := by
      constructor
      · rintro ⟨tag', value', heq, hbrings, hfile⟩
        have htag' := colon_not_mem_of_mem_recordTags hbrings.mem_recordTags
        obtain ⟨rfl, rfl⟩ := (append_sep_inj htag htag').1 heq
        exact ⟨hbrings, hfile⟩
      · rintro ⟨hbrings, hfile⟩
        exact ⟨tag, value, rfl, hbrings, hfile⟩
    rw [hsame, readTagged, cut_append value htag]
    dsimp only
    split_ifs with hDA hBRDA hFN hFNDA
    · rw [entry?_ofFields_iff, counts_readLine_iff, hDA]; rfl
    · rw [entry?_ofFields_iff, counts_readBranch_iff, hBRDA]; rfl
    · rw [entry?_ofFields_iff, counts_readFunction_iff, hFN]; rfl
    · rw [entry?_ofFields_iff, counts_readCalls_iff, hFNDA]; rfl
    · refine iff_of_false (by simp [Reading.entry?, counted?]) fun h => ?_
      have hmem := h.1.mem_recordTags
      simp only [recordTags, List.mem_cons, List.not_mem_nil, or_false] at hmem
      exact hmem.elim hDA fun h => h.elim hBRDA fun h => h.elim hFN hFNDA
  · rw [readTagged, cut_eq_none_of_not_mem hcolon]
    refine iff_of_false (by simp [Reading.entry?]) ?_
    rintro ⟨tag, value, rfl, -⟩
    exact hcolon (by simp)

end Statement

open Statement (Brings)

/-! ## Open records -/

/-- The file whose record is open behind some lines: its record has begun, and since then none has
begun and none has ended. -/
def OpenFile (before : List (List Char)) (path : Path) : Prop :=
  ∃ front source since, before = front ++ source :: since ∧ Begins source path ∧
    ∀ line ∈ since, ¬ OpensRecord line ∧ ¬ EndsRecord line

theorem not_openFile_nil (path : Path) : ¬ OpenFile [] path := by
  rintro ⟨front, source, since, h, -⟩
  simp at h

theorem openFile_snoc {before : List (List Char)} {line : List Char} {path : Path} :
    OpenFile (before ++ [line]) path ↔
      Begins line path ∨ OpenFile before path ∧ ¬ OpensRecord line ∧ ¬ EndsRecord line := by
  constructor
  · rintro ⟨front, source, since, heq, hsource, hsince⟩
    rcases List.eq_nil_or_concat since with rfl | ⟨since', last, rfl⟩
    · obtain ⟨-, hlast⟩ := List.append_inj' heq rfl
      cases hlast
      exact .inl hsource
    · rw [List.concat_eq_append, ← List.cons_append, ← List.append_assoc] at heq
      obtain ⟨rfl, hlast⟩ := List.append_inj' heq rfl
      cases hlast
      exact .inr ⟨⟨front, source, since', rfl, hsource, fun l hl => hsince l (by simp [hl])⟩,
        hsince line (by simp)⟩
  · rintro (hsource | ⟨⟨front, source, since, rfl, hsource, hsince⟩, hline⟩)
    · exact ⟨before, line, [], rfl, hsource, by simp⟩
    · refine ⟨front, source, since ++ [line], by simp, hsource, fun l hl => ?_⟩
      rcases List.mem_append.1 hl with hl | hl
      · exact hsince l hl
      · rw [List.mem_singleton.1 hl]
        exact hline

theorem begins_inj {line : List Char} {path path' : Path} (h : Begins line path)
    (h' : Begins line path') : path = path' := by
  have htext : path.text.toList = path'.text.toList := List.append_cancel_left (h.symm.trans h')
  obtain ⟨text⟩ := path
  obtain ⟨text'⟩ := path'
  exact congrArg Path.mk (String.toList_inj.1 htext)

/-- Which file's record a line leaves open. -/
theorem opens_read_iff {before : List (List Char)} {opened : Option Path}
    (hopen : ∀ path, opened = some path ↔ OpenFile before path) (line : List Char) (path : Path) :
    (Statement.read line).opens opened = some path ↔ OpenFile (before ++ [line]) path := by
  have hbegins : ∀ {path}, ¬ OpensRecord line → ¬ Begins line path :=
    fun h hbegins => h hbegins.opensRecord
  rw [openFile_snoc]
  rcases Statement.read_cases line with ⟨hblank, hread⟩ | ⟨source, hsource, hread⟩ |
    ⟨hopens, hend, hread⟩ | ⟨-, hopens, hend, hread⟩ <;> rw [hread]
  · obtain ⟨hopens, hend⟩ := Statement.not_opens_of_blank hblank
    simp [Reading.opens, hbegins hopens, hopens, hend, hopen]
  · simp only [Reading.opens, Option.some_inj, hsource.opensRecord, not_true, false_and, and_false,
      or_false]
    exact ⟨fun h => h ▸ hsource, begins_inj hsource⟩
  · simp [Reading.opens, hbegins hopens, hend]
  · rw [Statement.opens_readTagged, hopen]
    simp [hbegins hopens, hopens, hend]

/-- Where a record is open, it is that of a file. -/
theorem exists_openFile {before : List (List Char)} (h : RecordOpen before) :
    ∃ path, OpenFile before path := by
  induction before using List.reverseRecOn with
  | nil => exact absurd h Statement.recordOpen_nil
  | append_singleton before line ih =>
    by_cases hopens : OpensRecord line
    · obtain ⟨text, htext⟩ := hopens
      refine ⟨⟨String.ofList text⟩, openFile_snoc.2 (.inl ?_)⟩
      simpa [Begins] using htext.symm
    · obtain ⟨hbefore, hend⟩ := ((Statement.recordOpen_snoc before line).1 h).resolve_left hopens
      obtain ⟨path, hpath⟩ := ih hbefore
      exact ⟨path, openFile_snoc.2 (.inr ⟨hpath, hopens, hend⟩)⟩

/-! ## Entries -/

/-- The entry that a line makes behind others: in the file whose record is open, what the line
brings. -/
def IsEntry (before : List (List Char)) (line : List Char) (e : Entry) : Prop :=
  ∃ path tag value, OpenFile before path ∧ e.file = path.parts ∧ trim line = tag ++ ':' :: value ∧
    Brings tag value e.key e.count

/-- The entries that lines make behind others, one after another. -/
inductive EntriesBehind : List (List Char) → List (List Char) → List Entry → Prop
  | nil (before : List (List Char)) : EntriesBehind before [] []
  | entry {before rest : List (List Char)} {line : List Char} {e : Entry} {es : List Entry}
      (hentry : IsEntry before line e) (hrest : EntriesBehind (before ++ [line]) rest es) :
      EntriesBehind before (line :: rest) (e :: es)
  | other {before rest : List (List Char)} {line : List Char} {es : List Entry}
      (hnone : ∀ e, ¬ IsEntry before line e) (hrest : EntriesBehind (before ++ [line]) rest es) :
      EntriesBehind before (line :: rest) es

/-- The entries of lines. -/
def EntriesOf (lines : List (List Char)) (es : List Entry) : Prop := EntriesBehind [] lines es

theorem entry?_read_iff {before : List (List Char)} {opened : Option Path}
    (hopen : ∀ path, opened = some path ↔ OpenFile before path) (line : List Char) (e : Entry) :
    Reading.entry? opened (Statement.read line) = some e ↔ IsEntry before line e := by
  have htag : ∀ {tag value}, trim line = tag ++ ':' :: value → Brings tag value e.key e.count →
      trim line ≠ [] ∧ ¬ OpensRecord line ∧ ¬ EndsRecord line := by
    intro tag value hline hbrings
    have hcolon := Statement.colon_not_mem_of_mem_recordTags hbrings.mem_recordTags
    refine ⟨by simp [hline], ?_, fun hend => ?_⟩
    · rintro ⟨text, htext⟩
      have hsource : ['S', 'F'] ++ ':' :: text = tag ++ ':' :: value := htext.trans hline
      obtain ⟨rfl, -⟩ := (append_sep_inj (by decide) hcolon).1 hsource
      exact absurd hbrings.mem_recordTags (by decide)
    · exact Statement.colon_not_mem_end (hend ▸ hline ▸ by simp)
  cases opened with
  | none =>
    refine iff_of_false ?_ ?_
    · cases Statement.read line <;> simp [Reading.entry?]
    · rintro ⟨path, tag, value, hpath, -⟩
      cases (hopen path).2 hpath
  | some path =>
    have hentry : IsEntry before line e ↔ ∃ tag value, trim line = tag ++ ':' :: value ∧
        Brings tag value e.key e.count ∧ e.file = path.parts := by
      constructor
      · rintro ⟨path', tag, value, hpath, hfile, hline, hbrings⟩
        cases (hopen path').2 hpath
        exact ⟨tag, value, hline, hbrings, hfile⟩
      · rintro ⟨tag, value, hline, hbrings, hfile⟩
        exact ⟨path, tag, value, (hopen path).1 rfl, hfile, hline, hbrings⟩
    rw [hentry]
    rcases Statement.read_cases line with ⟨hblank, hread⟩ | ⟨source, hsource, hread⟩ |
      ⟨hopens, hend, hread⟩ | ⟨-, hopens, hend, hread⟩ <;> rw [hread]
    · refine iff_of_false (by simp [Reading.entry?]) ?_
      rintro ⟨tag, value, hline, hbrings, -⟩
      exact (htag hline hbrings).1 hblank
    · refine iff_of_false (by simp [Reading.entry?, Statement.counted?]) ?_
      rintro ⟨tag, value, hline, hbrings, -⟩
      exact (htag hline hbrings).2.1 hsource.opensRecord
    · refine iff_of_false (by simp [Reading.entry?, Statement.counted?]) ?_
      rintro ⟨tag, value, hline, hbrings, -⟩
      exact (htag hline hbrings).2.2 hend
    · exact Statement.entry?_readTagged_iff

theorem entriesBehind_iff : ∀ {lines before : List (List Char)}
    {opened : Option Path} {es : List Entry},
    (∀ path, opened = some path ↔ OpenFile before path) →
    (EntriesBehind before lines es ↔ es = entriesFrom opened (lines.map Statement.read))
  | [], before, opened, es, _ => by
    constructor
    · intro h
      cases h
      rfl
    · rintro rfl
      exact .nil before
  | line :: rest, before, opened, es, hopen => by
    have hline := entry?_read_iff hopen line
    have ih := fun es => @entriesBehind_iff rest (before ++ [line]) _ es
      (opens_read_iff hopen line)
    simp only [List.map_cons, entriesFrom]
    cases hentry : Reading.entry? opened (Statement.read line) with
    | none =>
      have hnone : ∀ e, ¬ IsEntry before line e := fun e he => by
        rw [(hline e).2 he] at hentry
        cases hentry
      constructor
      · rintro (_ | ⟨he, -⟩ | ⟨-, hrest⟩)
        · exact absurd he (hnone _)
        · exact (ih _).1 hrest
      · rintro rfl
        exact .other hnone ((ih _).2 rfl)
    | some e =>
      have he : IsEntry before line e := (hline e).1 hentry
      constructor
      · rintro (_ | ⟨he', hrest⟩ | ⟨hnone, -⟩)
        · rw [(hline _).2 he'] at hentry
          cases hentry
          exact congrArg _ ((ih _).1 hrest)
        · exact absurd he (hnone e)
      · rintro rfl
        exact .entry he ((ih _).2 rfl)

/-- A text has one list of entries. -/
theorem entriesOf_iff {text : String} {es : List Entry} :
    EntriesOf (lines text.toList) es ↔ es = entries text :=
  entriesBehind_iff fun path => iff_of_false (by simp) (not_openFile_nil path)

/-- Every line with the tag of a record makes an entry. -/
def AllCounted (lines : List (List Char)) : Prop :=
  ∀ before line after tag value, lines = before ++ line :: after → trim line = tag ++ ':' :: value →
    tag ∈ recordTags → ∃ e, IsEntry before line e

theorem Statement.exists_counted {s : Statement} (h : s.Belongs) : ∃ c, s.counted? = some c := by
  cases s with
  | source | finish | remark => cases h false
  | _ => exact ⟨_, rfl⟩

/-- A line with the tag of a record that is not malformed makes an entry. -/
theorem allCounted_of_wellFormed {lines : List (List Char)} (h : WellFormed lines) :
    AllCounted lines := by
  intro before line after tag value hlines hline htag
  have hcolon := Statement.colon_not_mem_of_mem_recordTags htag
  have hsource : ¬ OpensRecord line := by
    rintro ⟨text, htext⟩
    have hcut : ['S', 'F'] ++ ':' :: text = tag ++ ':' :: value := htext.trans hline
    obtain ⟨rfl, -⟩ := (append_sep_inj (by decide) hcolon).1 hcut
    exact absurd htag (by decide)
  have hfits : RecordOpen before ∧ Statement.Fits tag value := by
    by_contra hno
    refine h before line after hlines ⟨by simp [hline], hsource, .inr (.inr ?_)⟩
    exact ⟨tag, value, hline, hcolon, htag, not_and_or.1 hno⟩
  obtain ⟨path, hpath⟩ := exists_openFile hfits.1
  obtain ⟨-, r, hread, hok, hbelongs⟩ :=
    (Statement.readTagged_cases hline hcolon).resolve_right fun hother => hother.1 htag
  cases r with
  | error fault => cases hok.2 hfits.2
  | ok s =>
    obtain ⟨⟨key, count⟩, hcount⟩ := Statement.exists_counted (hbelongs s rfl)
    have hentry : Reading.entry? (some path) (Statement.readTagged (trim line)) =
        some ⟨path.parts, key, count⟩ := by
      simp [hread, Reading.ofFields, Reading.entry?, hcount]
    obtain ⟨tag', value', hline', hbrings, hfile⟩ := Statement.entry?_readTagged_iff.1 hentry
    exact ⟨_, path, tag', value', hpath, hfile, hline', hbrings⟩

/-! ## Reports of texts -/

/-- What a report says of lines and their entries: its files are the files whose records begin at
one of the lines, each once, and at each key of a file stands what the entries of that key amount
to. -/
structure Report.Accounts (r : Report) (lines : List (List Char)) (es : List Entry) : Prop where
  distinct : r.files.entries.Pairwise fun a b => a.1.parts ≠ b.1.parts
  files : ∀ path, (r.file? path).isSome ↔
    ∃ line ∈ lines, ∃ source, Begins line source ∧ source.parts = path.parts
  counts : ∀ path record, r.file? path = some record →
    ∀ key, Amounts (contributions es path.parts key) (record.count? key)

/-- A file is named where its record begins. -/
theorem source?_read_iff {line : List Char} {path : Path} :
    (Statement.read line).source? = some path ↔ Begins line path := by
  rcases Statement.read_cases line with ⟨hblank, hread⟩ | ⟨source, hsource, hread⟩ |
    ⟨hopens, -, hread⟩ | ⟨-, hopens, -, hread⟩ <;> rw [hread]
  · exact iff_of_false (by simp [Reading.source?]) fun h =>
      (Statement.not_opens_of_blank hblank).1 h.opensRecord
  · simp only [Reading.source?, Option.some_inj]
    exact ⟨fun h => h ▸ hsource, begins_inj hsource⟩
  · exact iff_of_false (by simp [Reading.source?]) fun h => hopens h.opensRecord
  · refine iff_of_false (fun h => ?_) fun h => hopens h.opensRecord
    have hsame := Statement.opens_readTagged none (trim line)
    unfold Reading.source? at h
    split at h
    · rename_i source hsource
      rw [hsource] at hsame
      cases hsame
    · cases h

namespace Report

/-- A report that counts what the entries of a text count accounts for them. -/
theorem accounts_of_tally {r : Report} {text : String}
    (htally : r.tally = ((entries text).map Entry.tally).sum)
    (hfiles : ∀ path, (r.file? path).isSome ↔ ∃ s ∈ sources text, s.parts = path.parts) :
    r.Accounts (lines text.toList) (entries text) where
  distinct := r.files.distinct.imp fun h e => h (compare_eq_iff.2 e)
  files path := by
    rw [hfiles]
    simp only [sources, readings, List.mem_filterMap, List.mem_map, exists_exists_and_eq_and,
      source?_read_iff]
    constructor
    · rintro ⟨source, ⟨line, hline, hsource⟩, hparts⟩
      exact ⟨line, hline, source, hsource, hparts⟩
    · rintro ⟨line, hline, source, hsource, hparts⟩
      exact ⟨source, ⟨line, hline, hsource⟩, hparts⟩
  counts path record hfile key := by
    apply amounts_of_sum
    rw [← sum_tally (path, key) (entries text), ← htally, tally_of_file? hfile]
    rfl

/-- Reading loses no hit, counts none twice and puts none in another place. A text without a rejected
line has one list of entries, and the report that accounts for them, if each of their sums has a place
in 64 bits; if one has none, reading stops and gives no report. So texts with the same entries, in
whatever order and in whichever records of their files, have the same counts. -/
theorem parse_accounts (text : String)
    (h : ∀ number fault, parse text ≠ .error (.malformed number fault)) :
    ∃ es, (∀ es', EntriesOf (lines text.toList) es' ↔ es' = es) ∧
      (¬ Overflows es → ∃ r, parse text = .ok r ∧ r.Accounts (lines text.toList) es ∧
        AllCounted (lines text.toList)) ∧
      (Overflows es → parse text = .error .overflow) ∧
      ∀ text' es', (∀ number fault, parse text' ≠ .error (.malformed number fault)) →
        EntriesOf (lines text'.toList) es' → es'.Perm es →
        (parse text' = .error .overflow ↔ parse text = .error .overflow) ∧
        ∀ r r', parse text = .ok r → parse text' = .ok r' →
          ∀ path key, r.count? path key = r'.count? path key := by
  refine ⟨entries text, fun es' => entriesOf_iff, fun hsmall => ?_, (parse_eq_overflow_iff h).2,
    fun text' es' h' hes hp => ?_⟩
  · rcases parse_cases text with ⟨r, hr, htally, hfiles⟩ | ⟨-, hlarge⟩ | ⟨n, fault, hf, -⟩
    · exact ⟨r, hr, accounts_of_tally htally hfiles,
        allCounted_of_wellFormed ((parse_eq_ok_iff hsmall).1 ⟨r, hr⟩)⟩
    · exact absurd hlarge hsmall
    · exact absurd hf (h n fault)
  · obtain rfl := entriesOf_iff.1 hes
    refine ⟨?_, fun r r' hr hr' => ?_⟩
    · rw [parse_eq_overflow_iff h, parse_eq_overflow_iff h', overflows_perm hp]
    · apply count?_of_tally
      rw [(tally_of_parse hr).1, (tally_of_parse hr').1, (hp.map Entry.tally).sum_eq]

/-- A text none of whose lines is rejected: one file in two records, spelled in two ways, the second
record without an end. -/
def splitText : String :=
  "SF:a/b\nDA:1,2\nBRDA:1,0,0,-\nend_of_record\nTN:\nSF:a//b\nFN:1,f\nDA:1,3.7\n FNDA:4,f"

/-- Its entries. -/
def splitEntries : List Entry :=
  let file := (Path.mk "a/b").parts
  [⟨file, .line 1, some 2⟩, ⟨file, .branch ⟨1, 0, 0⟩, none⟩, ⟨file, .function "f", some 0⟩,
    ⟨file, .line 1, some 3⟩, ⟨file, .function "f", some 4⟩]

/-- The same entries in one record. -/
def wholeText : String :=
  "SF:a/b\nFNDA:4,f\nFN:1,f\nDA:1,3\nBRDA:1,0,0,-\nDA:1,2\nend_of_record"

/-- Two counts of one line that 64 bits do not hold together. -/
def largeText : String := "SF:a\nDA:1,18446744073709551615\nSF:a\nDA:1,1"

theorem parse_accounts_split :
    EntriesOf (lines splitText.toList) splitEntries ∧
    (∃ r, parse splitText = .ok r ∧ r.Accounts (lines splitText.toList) splitEntries) ∧
    (∀ r r', parse splitText = .ok r → parse wholeText = .ok r' →
      ∀ path key, r.count? path key = r'.count? path key) ∧
    parse largeText = .error .overflow := by
  have hlegal : ∀ {text : String} {r : Report}, parse text = .ok r →
      ∀ number fault, parse text ≠ .error (.malformed number fault) := by
    intro text r h number fault e
    rw [h] at e
    cases e
  have hsplit : parse splitText = .ok ⟨.ofList [(⟨"a/b"⟩, ⟨.ofList [(1, 5)],
      .ofList [(⟨1, 0, 0⟩, none)], .ofList [("f", ⟨1, 4⟩)]⟩)]⟩ := by decide +kernel
  have hwhole : parse wholeText = .ok ⟨.ofList [(⟨"a/b"⟩, ⟨.ofList [(1, 5)],
      .ofList [(⟨1, 0, 0⟩, none)], .ofList [("f", ⟨1, 4⟩)]⟩)]⟩ := by decide +kernel
  have hentries : EntriesOf (lines splitText.toList) splitEntries :=
    entriesOf_iff.2 (by decide +kernel)
  have hperm : (entries wholeText).Perm splitEntries := by decide +kernel
  have hlarge : parse largeText = .error .overflow := by decide +kernel
  have hsmall : ¬ Overflows splitEntries :=
    entriesOf_iff.1 hentries ▸ not_overflows_of_tally (tally_of_parse hsplit).1
  obtain ⟨es, hes, hok, -, hsame⟩ := parse_accounts splitText (hlegal hsplit)
  obtain rfl := (hes _).1 hentries
  obtain ⟨r, hr, haccounts, -⟩ := hok hsmall
  refine ⟨hentries, ⟨r, hr, haccounts⟩,
    (hsame wholeText _ (hlegal hwhole) (entriesOf_iff.2 rfl) hperm).2, ?_⟩
  obtain ⟨es, hes, -, hover, -⟩ := parse_accounts largeText fun number fault e => by
    rw [hlarge] at e
    cases e
  obtain rfl := (hes _).1 (entriesOf_iff.2 rfl)
  exact hover ⟨⟨"a"⟩, .line 1, by decide +kernel⟩

end Report

end CoverageRun.Coverage
