/-
A report counts what its text counts. Each entry of a text belongs to the file whose record is open
at its line; whichever records the entries of a file stand in, and in whichever order, the report
keeps their sum at each key, and there is no report exactly if a sum has no place in 64 bits.

While a text is read, the report and the open record count together what has been read.
-/
import CoverageRun.Proofs.Coverage.Reading
import CoverageRun.Proofs.Coverage.Tally

namespace CoverageRun.Coverage

open Statement (Reading)

/-! ## The entries of a text -/

/-- What a statement counts in the file it stands in. A function occurs where its line is given. -/
def Statement.counted? : Statement → Option (Key × Option UInt64)
  | .lineHits line hits => some (.line line, some hits)
  | .branchTaken id taken => some (.branch id, taken)
  | .functionLine _ name => some (.function name, some 0)
  | .functionHits hits name => some (.function name, some hits)
  | _ => none

/-- An entry of a text: the file it belongs to, by its parts, what it counts and the count it
brings. -/
structure Entry where
  file : List Part
  key : Key
  count : Option UInt64
  deriving DecidableEq, Repr

namespace Statement.Reading

/-- The entry that a line makes where the record of a file is open. -/
def entry? (opened : Option Path) : Reading → Option Entry
  | .statement s => opened.bind fun path => s.counted?.map fun c => ⟨path.parts, c.1, c.2⟩
  | _ => none

/-- The file whose record begins at a line. -/
def source? : Reading → Option Path
  | .statement (.source path) => some path
  | _ => none

end Statement.Reading

/-- The entries of lines before which the record of a file is open, or none is. -/
def entriesFrom (opened : Option Path) : List Reading → List Entry
  | [] => []
  | r :: rest => (r.entry? opened).toList ++ entriesFrom (r.opens opened) rest

/-- What the lines of a text are read as. -/
def readings (text : String) : List Reading := (Text.lines text.toList).map Statement.read

/-- The entries of a text. -/
def entries (text : String) : List Entry := entriesFrom none (readings text)

/-- The files whose records begin in a text. -/
def sources (text : String) : List Path := (readings text).filterMap Reading.source?

/-! ## Contributions -/

/-- The counts that entries bring to one key of a file. -/
def contributions (es : List Entry) (file : List Part) (key : Key) : List (Option UInt64) :=
  (es.filter fun e => e.file = file ∧ e.key = key).map Entry.count

/-- The sum of counts. -/
def total (cs : List (Option UInt64)) : Nat := (cs.map fun c => (c.getD 0).toNat).sum

/-- Whether the counts of some key have a sum that 64 bits do not hold. -/
def Overflows (es : List Entry) : Prop :=
  ∃ (path : Path) (key : Key), 2 ^ 64 ≤ total (contributions es path.parts key)

/-- What is kept for counts: nothing for none of them, no count if none of them is one, and else
their sum. -/
def Amounts (cs : List (Option UInt64)) : Option (Option UInt64) → Prop
  | none => cs = []
  | some none => cs ≠ [] ∧ ∀ c ∈ cs, c = none
  | some (some n) => (∃ c ∈ cs, c ≠ none) ∧ n.toNat = total cs

/-- What an entry counts. -/
def Entry.tally (e : Entry) (x : Path × Key) : Tally :=
  if e.file = x.1.parts ∧ e.key = x.2 then .entry e.count else 0

theorem sum_tally (x : Path × Key) : ∀ es : List Entry,
    (es.map Entry.tally).sum x = ((contributions es x.1.parts x.2).map Tally.entry).sum
  | [] => rfl
  | e :: es => by
    have ih := sum_tally x es
    unfold contributions at ih ⊢
    rw [List.map_cons, List.sum_cons, Pi.add_apply, ih, Entry.tally, List.filter_cons]
    by_cases h : e.file = x.1.parts ∧ e.key = x.2 <;> simp [h]

theorem hits_sum_entry : ∀ cs : List (Option UInt64), (cs.map Tally.entry).sum.hits = total cs
  | [] => rfl
  | c :: cs => by
    rw [List.map_cons, List.sum_cons, Tally.hits_add, hits_sum_entry cs, Tally.hits_entry]
    simp [total]

/-- The sum of tallies says whether there are counts, and whether one of them is one. -/
theorem sum_entry_cases : ∀ cs : List (Option UInt64),
    (cs = [] ∧ (cs.map Tally.entry).sum = 0) ∨
    (cs ≠ [] ∧ (∀ c ∈ cs, c = none) ∧ (cs.map Tally.entry).sum = .entry none) ∨
    ((∃ c ∈ cs, c ≠ none) ∧ ∃ n : Nat, (cs.map Tally.entry).sum = some (some n))
  | [] => .inl ⟨rfl, rfl⟩
  | c :: cs => by
    right
    rw [List.map_cons, List.sum_cons]
    -- an entry without a count leaves open what the rest comes to; one with a count does not
    cases c with
    | none =>
      rcases sum_entry_cases cs with ⟨rfl, h⟩ | ⟨-, hdash, h⟩ | ⟨⟨c, hc, hne⟩, n, h⟩
      · exact .inl ⟨by simp, by simp, by rw [h, add_zero]⟩
      · exact .inl ⟨by simp, by simpa using hdash, by rw [h]; rfl⟩
      · exact .inr ⟨⟨c, List.mem_cons_of_mem _ hc, hne⟩, n, by rw [h]; rfl⟩
    | some m =>
      refine .inr ⟨⟨some m, List.mem_cons_self, by simp⟩, ?_⟩
      rcases sum_entry_cases cs with ⟨-, h⟩ | ⟨-, -, h⟩ | ⟨-, n, h⟩ <;> rw [h]
      · exact ⟨m.toNat, rfl⟩
      · exact ⟨m.toNat, rfl⟩
      · exact ⟨m.toNat + n, rfl⟩

/-- The sum of the tallies of counts says what is kept for them. -/
theorem amounts_of_sum {cs : List (Option UInt64)} {c : Option (Option UInt64)}
    (h : Tally.ofCount c = (cs.map Tally.entry).sum) : Amounts cs c := by
  have hhits : (Tally.ofCount c).hits = total cs := by rw [h, hits_sum_entry]
  rcases sum_entry_cases cs with ⟨hcs, hs⟩ | ⟨hne, hdash, hs⟩ | ⟨hcount, n, hs⟩ <;> rw [hs] at h <;>
    rcases c with _ | _ | m <;> try cases h
  · exact hcs
  · exact ⟨hne, hdash⟩
  · exact ⟨hcount, hhits⟩

/-! ## While a text is read -/

/-- What a statement counts. -/
def Statement.tally (s : Statement) : Key → Tally :=
  match s.counted? with
  | some (k, c) => FileRecord.single k c
  | none => 0

namespace Progress

theorem sums_record? (r : FileRecord) (s : Statement) :
    Sums FileRecord.tally r.tally s.tally (record? r s) := by
  cases s with
  | lineHits line hits => exact r.sums_addLine? line hits
  | branchTaken id taken => exact r.sums_addBranch? id taken
  | functionLine line name => exact r.tally_placeFunction name line
  | functionHits hits name => exact r.sums_addCalls? name 0 hits
  | _ => exact (add_zero r.tally).symm

/-- What has been read so far: what the report counts and what the open record counts. -/
def tally (p : Progress) : Path × Key → Tally :=
  p.report.tally + p.current.elim 0 fun c => spread c.1 c.2.tally

/-- Whether a file is in the report, or its record is open. -/
def Knows (p : Progress) (path : Path) : Prop :=
  (p.report.file? path).isSome ∨ ∃ c, p.current = some c ∧ c.1.parts = path.parts

/-- Ending a record counts nothing twice and loses nothing. -/
theorem sums_close? (p : Progress) : Sums Report.tally p.tally 0 p.close? := by
  obtain ⟨report, _ | ⟨path, record⟩⟩ := p
  · exact (add_zero report.tally).symm.trans (add_zero _).symm
  · exact (report.sums_insert? path record).settle

theorem isSome_file?_close? {p : Progress} {r : Report} (h : p.close? = some r) (path : Path) :
    (r.file? path).isSome ↔ p.Knows path := by
  obtain ⟨report, _ | ⟨opened, record⟩⟩ := p
  · cases h; simp [Knows]
  · rw [Report.isSome_file?_insert? h path]; simp [Knows]

/-- The tallies of an entry that a line may make. -/
theorem sum_tally_counted (path : Path) (s : Statement) :
    ((Reading.entry? (some path) (.statement s)).toList.map Entry.tally).sum = spread path s.tally := by
  unfold Statement.tally
  cases h : s.counted? with
  | none => simp [Reading.entry?, h, spread_zero]
  | some c =>
    funext x
    simp only [Reading.entry?, h, Option.bind_some, Option.map_some, Option.toList_some, List.map_cons,
      List.map_nil, List.sum_cons, List.sum_nil, Pi.add_apply, Pi.zero_apply, add_zero, Entry.tally,
      spread, FileRecord.single]
    by_cases hf : x.1.parts = path.parts
    · by_cases hk : x.2 = c.1
      · simp [hf, hk]
      · simp [hf, hk, Ne.symm hk]
    · simp [hf, Ne.symm hf]

/-- A statement within a record adds to what has been read what it counts in the record's file. -/
theorem sums_record?_map (report : Report) (path : Path) (record : FileRecord) (s : Statement) :
    Sums tally (tally ⟨report, some (path, record)⟩) (spread path s.tally)
      ((record? record s).map fun record => ⟨report, some (path, record)⟩) := by
  have hrecord := sums_record? record s
  cases h : record? record s with
  | none =>
    rw [h] at hrecord
    obtain ⟨k, hk⟩ := hrecord
    refine ⟨(path, k), ?_⟩
    simp only [tally, Pi.add_apply, Tally.hits_add, Option.elim, spread, if_true] at hk ⊢
    omega
  | some record' =>
    rw [h] at hrecord
    have heq : record'.tally = record.tally + s.tally := hrecord
    show report.tally + spread path record'.tally = _
    rw [heq, spread_add, ← add_assoc]
    rfl

/-- A line adds its entry to what has been read. -/
theorem sums_advance? (p : Progress) (r : Reading) :
    Sums tally p.tally ((r.entry? p.opened).toList.map Entry.tally).sum (p.advance? r) := by
  have hnothing : Sums tally p.tally ((none : Option Entry).toList.map Entry.tally).sum (some p) :=
    (add_zero p.tally).symm
  cases r with
  | blank => exact hnothing
  | broken fault => exact hnothing
  | statement s =>
    -- the beginning and the end of a record only move what the open record counts
    cases s with
    | source path =>
      have hentry : Reading.entry? p.opened (.statement (.source path)) = none := by
        cases p.opened <;> rfl
      rw [hentry]
      apply p.sums_close?.map
      intro report
      simp [tally, FileRecord.tally_empty, spread_zero]
    | finish =>
      have hentry : Reading.entry? p.opened (.statement .finish) = none := by
        cases p.opened <;> rfl
      rw [hentry]
      apply p.sums_close?.map
      intro report
      simp [tally]
    | _ =>
      obtain ⟨report, _ | ⟨path, record⟩⟩ := p
      · exact hnothing
      · rw [opened, Option.map_some, sum_tally_counted]
        exact sums_record?_map report path record _

/-- A file becomes known where its record begins, and stays known. -/
theorem knows_advance? {p q : Progress} {r : Reading} (h : p.advance? r = some q) (path : Path) :
    q.Knows path ↔ p.Knows path ∨ ∃ s ∈ r.source?, s.parts = path.parts := by
  cases r with
  | blank => cases h; simp [Reading.source?]
  | broken fault => cases h; simp [Reading.source?]
  | statement s =>
    cases s with
    | source source =>
      obtain ⟨report, hr, rfl⟩ := Option.map_eq_some_iff.1 h
      rw [← isSome_file?_close? hr path]
      simp [Knows, Reading.source?]
    | finish =>
      obtain ⟨report, hr, rfl⟩ := Option.map_eq_some_iff.1 h
      rw [← isSome_file?_close? hr path]
      simp [Knows, Reading.source?]
    | _ =>
      obtain ⟨report, _ | ⟨opened, record⟩⟩ := p
      · cases h; simp [Reading.source?]
      · simp only [advance?] at h
        obtain ⟨_, _, rfl⟩ := Option.map_eq_some_iff.1 h
        simp [Knows, Reading.source?]

/-- What has been read after some lines, none of which is rejected. -/
structure After (p : Progress) (lines : List Reading) (q : Progress) : Prop where
  legal : ∀ number, firstFault? p.opened number lines = none
  tally : q.tally = p.tally + ((entriesFrom p.opened lines).map Entry.tally).sum
  knows : ∀ path, q.Knows path ↔
    p.Knows path ∨ ∃ s ∈ lines.filterMap Reading.source?, s.parts = path.parts

theorem After.nil (p : Progress) : p.After [] p where
  legal _ := rfl
  tally := (add_zero p.tally).symm
  knows := by simp

theorem After.cons {p q q' : Progress} {r : Reading} {lines : List Reading}
    (hr : r.fault? p.opened.isSome = none) (ha : p.advance? r = some q) (h : q.After lines q') :
    p.After (r :: lines) q' where
  legal number := by
    simp only [firstFault?, hr]
    rw [← opened_advance? ha]
    exact h.legal (number + 1)
  tally := by
    have hq := sums_advance? p r
    rw [ha] at hq
    rw [h.tally, show q.tally = _ from hq, opened_advance? ha, add_assoc, ← List.sum_append,
      ← List.map_append]
    rfl
  knows path := by
    rw [h.knows path, knows_advance? ha path, or_assoc]
    cases hs : r.source? <;> simp [hs]

/-- Reading lines ends with all of them read, at a sum without a place in 64 bits, or at the first
rejected line. -/
theorem steps_cases : ∀ (lines : List (List Char)) (number : Nat) (p : Progress),
    (∃ q, p.steps number lines = .ok q ∧ p.After (lines.map Statement.read) q) ∨
    (p.steps number lines = .error .overflow ∧
      ∃ x, UInt64.size ≤ (p.tally x +
        ((entriesFrom p.opened (lines.map Statement.read)).map Entry.tally).sum x).hits) ∨
    ∃ n fault, p.steps number lines = .error (.malformed n fault) ∧
      firstFault? p.opened number (lines.map Statement.read) = some (n, fault)
  | [], _, p => .inl ⟨p, rfl, .nil p⟩
  | line :: rest, number, p => by
    -- the rest is read from where this line leads, so the induction is for every reading so far
    simp only [steps, step_eq, List.map_cons, firstFault?]
    have hsums := sums_advance? p (Statement.read line)
    split
    · rename_i fault _
      exact .inr (.inr ⟨number, fault, rfl, rfl⟩)
    rename_i hr
    cases ha : p.advance? (Statement.read line) with
    | none =>
      rw [ha] at hsums
      refine .inr (.inl ⟨rfl, ?_⟩)
      simp only [entriesFrom, List.map_append, List.sum_append]
      exact hsums.more
    | some q =>
      rw [ha] at hsums
      have htally : q.tally = _ := hsums
      rcases steps_cases rest (number + 1) q with ⟨q', hq, h⟩ | ⟨hq, x, h⟩ | ⟨n, fault, hq, h⟩
      · exact .inl ⟨q', hq, h.cons hr ha⟩
      · refine .inr (.inl ⟨hq, x, ?_⟩)
        rw [htally, opened_advance? ha, Pi.add_apply, add_assoc, ← Pi.add_apply, ← List.sum_append,
          ← List.map_append] at h
        exact h
      · rw [opened_advance? ha] at h
        exact .inr (.inr ⟨n, fault, hq, h⟩)

end Progress

theorem Progress.tally_start : Progress.start.tally = 0 := by
  funext x
  simp only [Progress.tally, Progress.start, Option.elim_none, add_zero]
  rfl

/-! ## Reports of texts -/

namespace Report

theorem overflows_of_tally {es : List Entry} {x : Path × Key}
    (h : UInt64.size ≤ ((es.map Entry.tally).sum x).hits) : Overflows es := by
  rw [sum_tally, hits_sum_entry] at h
  exact ⟨x.1, x.2, h⟩

/-- Reading a text ends with a report that counts what the text counts, at a sum without a place in
64 bits, or at a rejected line. -/
theorem parse_cases (text : String) :
    (∃ r, parse text = .ok r ∧ r.tally = ((entries text).map Entry.tally).sum ∧
      ∀ path, (r.file? path).isSome ↔ ∃ s ∈ sources text, s.parts = path.parts) ∨
    (parse text = .error .overflow ∧ Overflows (entries text)) ∨
    ∃ n fault, parse text = .error (.malformed n fault) ∧
      firstFault? none 1 (readings text) = some (n, fault) := by
  have hknows : ∀ path, ¬ Progress.start.Knows path := by
    simp [Progress.Knows, Progress.start, file?, Report.empty]
  unfold parse
  rcases Progress.steps_cases (Text.lines text.toList) 1 .start with
    ⟨p, hp, hafter⟩ | ⟨hp, x, h⟩ | ⟨n, fault, hp, h⟩ <;> rw [hp]
  · have hclose := p.sums_close?
    have htally : p.tally = ((entries text).map Entry.tally).sum := by
      rw [hafter.tally, Progress.tally_start, zero_add]; rfl
    -- a record that is open where the text ends is put into the report as if it had an end
    simp only [bind, Except.bind]
    cases hc : p.close? with
    | none =>
      rw [hc] at hclose
      obtain ⟨x, hx⟩ := hclose
      rw [htally, Pi.zero_apply, add_zero] at hx
      exact .inr (.inl ⟨rfl, overflows_of_tally hx⟩)
    | some r =>
      rw [hc] at hclose
      refine .inl ⟨r, rfl, (show r.tally = _ from hclose).trans (by rw [add_zero, htally]), ?_⟩
      intro path
      rw [Progress.isSome_file?_close? hc path, hafter.knows path]
      exact or_iff_right (hknows path)
  · rw [Progress.tally_start, Pi.zero_apply, zero_add] at h
    exact .inr (.inl ⟨rfl, overflows_of_tally h⟩)
  · exact .inr (.inr ⟨n, fault, rfl, h⟩)

/-- The counts of a report have a place in 64 bits. -/
theorem not_overflows_of_tally {r : Report} {es : List Entry}
    (htally : r.tally = (es.map Entry.tally).sum) : ¬ Overflows es := by
  rintro ⟨path, key, h⟩
  have hlt : (r.tally (path, key)).hits < UInt64.size := Tally.hits_ofCount_lt _
  rw [htally, sum_tally, hits_sum_entry] at hlt
  exact Nat.not_le.2 hlt h

/-- What a report that was read counts, and which files it has. -/
theorem tally_of_parse {text : String} {r : Report} (h : parse text = .ok r) :
    r.tally = ((entries text).map Entry.tally).sum ∧
      ∀ path, (r.file? path).isSome ↔ ∃ s ∈ sources text, s.parts = path.parts := by
  rcases parse_cases text with ⟨r', hr, hr'⟩ | ⟨hr, -⟩ | ⟨n, fault, hr, -⟩ <;> rw [h] at hr
  · cases hr; exact hr'
  · cases hr
  · cases hr

/-- Where no line is rejected, reading stops exactly at a sum without a place in 64 bits. -/
theorem parse_eq_overflow_iff {text : String}
    (h : ∀ number fault, parse text ≠ .error (.malformed number fault)) :
    parse text = .error .overflow ↔ Overflows (entries text) := by
  rcases parse_cases text with ⟨r, hr, htally, -⟩ | ⟨hr, hlarge⟩ | ⟨n, fault, hr, -⟩
  · rw [hr]
    exact ⟨fun e => (by cases e), fun e => absurd e (not_overflows_of_tally htally)⟩
  · exact ⟨fun _ => hlarge, fun _ => hr⟩
  · exact absurd hr (h n fault)

theorem overflows_perm {es es' : List Entry} (hp : es'.Perm es) : Overflows es' ↔ Overflows es := by
  have htotal : ∀ (path : Path) (key : Key),
      total (contributions es' path.parts key) = total (contributions es path.parts key) :=
    fun path key => (((hp.filter _).map Entry.count).map _).sum_eq
  simp only [Overflows, htotal]

/-- What is kept is known from what is counted. -/
theorem count?_of_tally {r r' : Report} (h : r.tally = r'.tally) (path : Path) (key : Key) :
    r.count? path key = r'.count? path key := by
  have hmap : Function.Injective (Option.map (Option.map UInt64.toNat)) :=
    Option.map_injective (Option.map_injective fun _ _ => UInt64.toNat_inj.1)
  exact hmap (congrFun h (path, key))

end Report

end CoverageRun.Coverage
