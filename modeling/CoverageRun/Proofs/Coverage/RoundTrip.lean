/-
Writing a report as a tracefile and reading it back gives the same report, for every report whose
paths and function names can stand at the end of a line; and every report that was read is such a
report.

A file is read back block by block: each block writes one map of the record, no key twice, so what
is read at a key is what the entry of that key says. Files come in path order, so each is read into
the end of the report.
-/
import CoverageRun.Proofs.Coverage.Reading
import CoverageRun.Proofs.Coverage.Statement
import CoverageRun.Proofs.Store.OrderedMap

namespace CoverageRun.Coverage

open Store Text

/-! ## Portable reports -/

/-- A record whose function names come through a line unchanged. -/
def FileRecord.Portable (r : FileRecord) : Prop :=
  ∀ e ∈ r.functions.entries, LineTail e.1.toList

/-- A report whose paths and function names come through a line unchanged: they hold no line feed
and end in no blank. -/
def Report.Portable (r : Report) : Prop :=
  ∀ e ∈ r.files.entries, LineTail e.1.text.toList ∧ e.2.Portable

instance (r : FileRecord) : Decidable r.Portable :=
  inferInstanceAs (Decidable (∀ e ∈ r.functions.entries, LineTail e.1.toList))

instance (r : Report) : Decidable r.Portable :=
  inferInstanceAs (Decidable (∀ e ∈ r.files.entries, LineTail e.1.text.toList ∧ e.2.Portable))

/-! ## Blocks of a record -/

namespace Progress

theorem foldlM_lineHits : ∀ (es : List (UInt32 × UInt64)) (r : FileRecord),
    (es.map fun l => Statement.lineHits l.1 l.2).foldlM record? r =
      (r.lines.upsertAll? (fun n hits => addHits? (n.getD 0) hits) es).map ({ r with lines := · })
  | [], _ => rfl
  | (line, hits) :: es, r => by
    simp only [List.map_cons, List.foldlM_cons, record?, FileRecord.addLine?, OrderedMap.upsertAll?]
    cases addHits? ((r.lines.get? line).getD 0) hits with
    | none => rfl
    | some n => exact foldlM_lineHits es { r with lines := r.lines.insert line n }

theorem foldlM_branchTaken : ∀ (es : List (BranchId × Option UInt64)) (r : FileRecord),
    (es.map fun b => Statement.branchTaken b.1 b.2).foldlM record? r =
      (r.branches.upsertAll? (fun n taken => addTaken? (n.getD none) taken) es).map
        ({ r with branches := · })
  | [], _ => rfl
  | (id, taken) :: es, r => by
    simp only [List.map_cons, List.foldlM_cons, record?, FileRecord.addBranch?, OrderedMap.upsertAll?]
    cases addTaken? ((r.branches.get? id).getD none) taken with
    | none => rfl
    | some n => exact foldlM_branchTaken es { r with branches := r.branches.insert id n }

/-- What a statement of its line makes of a function. -/
def placed (f : Option FunctionRecord) (g : FunctionRecord) : FunctionRecord :=
  { (f.getD ⟨g.line, 0⟩) with line := g.line }

theorem foldlM_functionLine : ∀ (es : List (String × FunctionRecord)) (r : FileRecord),
    (es.map fun f => Statement.functionLine f.2.line f.1).foldlM record? r =
      (r.functions.upsertAll? (fun f g => some (placed f g)) es).map ({ r with functions := · })
  | [], _ => rfl
  | (name, f) :: es, r => by
    simp only [List.map_cons, List.foldlM_cons, record?, OrderedMap.upsertAll?]
    exact foldlM_functionLine es (r.placeFunction name f.line)

/-- What a statement of its calls makes of a function. -/
def called? (f : Option FunctionRecord) (g : FunctionRecord) : Option FunctionRecord :=
  (addHits? (f.getD ⟨0, 0⟩).hits g.hits).map fun n => { (f.getD ⟨0, 0⟩) with hits := n }

theorem foldlM_functionHits : ∀ (es : List (String × FunctionRecord)) (r : FileRecord),
    (es.map fun f => Statement.functionHits f.2.hits f.1).foldlM record? r =
      (r.functions.upsertAll? called? es).map ({ r with functions := · })
  | [], _ => rfl
  | (name, f) :: es, r => by
    simp only [List.map_cons, List.foldlM_cons, record?, FileRecord.addCalls?, OrderedMap.upsertAll?,
      called?]
    cases addHits? ((r.functions.get? name).getD ⟨0, 0⟩).hits f.hits with
    | none => rfl
    | some n => exact foldlM_functionHits es _

end Progress

/-! ## A record is read back -/

@[simp]
theorem addHits?_zero (n : UInt64) : addHits? 0 n = some n := by
  simp [addHits?, n.toNat_lt_size]

/-- The entries of a map, written one after another, make the map. -/
theorem upsertAll?_entries {κ ν : Type} [Ord κ] [Std.TransOrd κ] [Std.LawfulEqOrd κ]
    (g : Option ν → ν → Option ν) (hg : ∀ v, g none v = some v) (m : OrderedMap κ ν) :
    OrderedMap.empty.upsertAll? g m.entries = some m := by
  obtain ⟨n, hn, hin, hout⟩ := OrderedMap.upsertAll?_distinct g m.distinct (m := OrderedMap.empty)
    fun e _ => by simp [hg]
  rw [hn]
  congr 1
  apply OrderedMap.eq_of_get?_entries
  · intro e he
    rw [hin e he, OrderedMap.get?_empty, hg]
  · intro k hk
    rw [hout k hk, OrderedMap.get?_empty]

/-- Lines of functions and then their calls, in any order of the functions, make the functions. -/
theorem upsertAll?_functions (m : OrderedMap String FunctionRecord)
    {es : List (String × FunctionRecord)} (hp : es.Perm m.entries) :
    ∃ n, OrderedMap.empty.upsertAll? (fun f g => some (Progress.placed f g)) es = some n ∧
      n.upsertAll? Progress.called? es = some m := by
  have hd : es.Pairwise fun a b => compare a.1 b.1 ≠ .eq :=
    (hp.pairwise_iff fun h e => h (Std.OrientedCmp.eq_symm e)).2 m.distinct
  obtain ⟨n, hn, hin, hout⟩ := OrderedMap.upsertAll?_distinct (fun f g => some (Progress.placed f g))
    hd (m := OrderedMap.empty) fun _ _ => rfl
  -- every function has its line by now, so its calls are added to none
  have hcalled : ∀ e ∈ es, Progress.called? (n.get? e.1) e.2 = some e.2 := fun e he => by
    rw [hin e he]
    simp [Progress.placed, Progress.called?]
  obtain ⟨n', hn', hin', hout'⟩ := OrderedMap.upsertAll?_distinct Progress.called? hd (m := n)
    fun e he => by rw [hcalled e he]; rfl
  refine ⟨n, hn, ?_⟩
  rw [hn']
  congr 1
  apply OrderedMap.eq_of_get?_entries
  · intro e he
    rw [hin' e (hp.mem_iff.2 he), hcalled e (hp.mem_iff.2 he)]
  · intro k hk
    have hk' : ∀ e ∈ es, compare k e.1 ≠ .eq := fun e he => hk e (hp.mem_iff.1 he)
    rw [hout' k hk', hout k hk', OrderedMap.get?_empty]

theorem functionsByLine_perm (r : FileRecord) : r.functionsByLine.Perm r.functions.entries :=
  List.mergeSort_perm _ _

/-! ## Lines that are read without a fault -/

namespace Progress

/-- Lines that lead from one reading to another. -/
def Reads (p : Progress) (lines : List (List Char)) (q : Progress) : Prop :=
  ∀ number, p.steps number lines = .ok q

theorem Reads.nil (p : Progress) : p.Reads [] p := fun _ => rfl

theorem Reads.append {p q s : Progress} {a b : List (List Char)} (h1 : p.Reads a q)
    (h2 : q.Reads b s) : p.Reads (a ++ b) s := fun number => by
  rw [steps_append, h1 number]
  exact h2 _

theorem reads_line {p q : Progress} {s : Statement} (hs : s.Portable)
    (hf : Statement.Reading.fault? p.opened.isSome (.statement s) = none)
    (ha : p.advance? (.statement s) = some q) : p.Reads [s.line] q := fun number => by
  simp only [steps, step_eq, Statement.read_line hs, hf, ha]
  rfl

end Progress

/-- A statement that stands within a record. -/
def Statement.Within : Statement → Prop
  | .source _ | .finish => False
  | _ => True

namespace Progress

theorem advance?_within {report : Report} {path : Path} {r : FileRecord} {s : Statement}
    (hs : s.Within) : advance? ⟨report, some (path, r)⟩ (.statement s) =
      (record? r s).map fun r' => ⟨report, some (path, r')⟩ := by
  cases s <;> first | exact hs.elim | rfl

/-- Statements within a record change that record only. -/
theorem reads_within {report : Report} {path : Path} : ∀ {ss : List Statement} {r r' : FileRecord},
    (∀ s ∈ ss, s.Portable ∧ s.Within) → ss.foldlM record? r = some r' →
      Reads ⟨report, some (path, r)⟩ (ss.map Statement.line) ⟨report, some (path, r')⟩
  | [], r, r', _, h => by cases h; exact .nil _
  | s :: ss, r, r', hs, h => by
    obtain ⟨hp, hw⟩ := hs s List.mem_cons_self
    rw [List.foldlM_cons] at h
    obtain ⟨r₁, h1, h2⟩ := Option.bind_eq_some_iff.1 h
    have hfirst : Reads ⟨report, some (path, r)⟩ [s.line] ⟨report, some (path, r₁)⟩ := by
      apply reads_line hp
      · cases s <;> first | exact hw.elim | rfl
      · rw [advance?_within hw, h1]; rfl
    exact hfirst.append (reads_within (fun t ht => hs t (List.mem_cons_of_mem _ ht)) h2)

end Progress

/-! ## Files and reports are read back -/

namespace FileRecord

/-- The statements of a file between its beginning and its end. -/
def body (r : FileRecord) : List Statement :=
  r.functionsByLine.map (fun f => Statement.functionLine f.2.line f.1) ++
    r.functionsByLine.map (fun f => Statement.functionHits f.2.hits f.1) ++
    [Statement.total "FNF" r.counts.functionsFound, Statement.total "FNH" r.counts.functionsHit] ++
    r.branches.entries.map (fun b => Statement.branchTaken b.1 b.2) ++
    [Statement.total "BRF" r.counts.branchesFound, Statement.total "BRH" r.counts.branchesHit] ++
    r.lines.entries.map (fun l => Statement.lineHits l.1 l.2) ++
    [Statement.total "LF" r.counts.linesFound, Statement.total "LH" r.counts.linesHit]

theorem statements_eq (path : Path) (r : FileRecord) :
    r.statements path = [.remark "TN" "", .source path] ++ r.body ++ [.finish] := by
  simp [statements, body]

theorem portable_testName : (Statement.remark "TN" "").Portable :=
  ⟨⟨by simp [Statement.dataTags], by simp, by simp, by simp; decide⟩, .nil⟩

theorem portable_total {tag : String} (h : Statement.RemarkTag tag) (n : Nat) :
    (Statement.total tag n).Portable ∧ (Statement.total tag n).Within := by
  refine ⟨⟨h, ?_⟩, trivial⟩
  rw [Statement.toList_number]
  exact Numeral.lineTail_write n

theorem portable_body {r : FileRecord} (h : r.Portable) :
    ∀ s ∈ r.body, s.Portable ∧ s.Within := by
  have hname : ∀ f ∈ r.functionsByLine, LineTail f.1.toList := fun f hf =>
    h f ((functionsByLine_perm r).mem_iff.1 hf)
  have htags : ∀ tag ∈ ["FNF", "FNH", "BRF", "BRH", "LF", "LH"], Statement.RemarkTag tag := by
    simp only [List.mem_cons, List.not_mem_nil, or_false, forall_eq_or_imp, forall_eq]
    refine ⟨?_, ?_, ?_, ?_, ?_, ?_⟩ <;>
      exact ⟨by simp [Statement.dataTags], by simp, by simp, by simp; decide⟩
  intro s hs
  simp only [body, List.mem_append, List.mem_map, List.mem_cons, List.not_mem_nil, or_false] at hs
  rcases hs with ((((((⟨f, hf, rfl⟩ | ⟨f, hf, rfl⟩) | rfl | rfl) | ⟨b, hb, rfl⟩) | rfl | rfl) |
    ⟨l, hl, rfl⟩) | rfl | rfl)
  · exact ⟨hname f hf, trivial⟩
  · exact ⟨hname f hf, trivial⟩
  · exact portable_total (htags _ (by simp)) _
  · exact portable_total (htags _ (by simp)) _
  · exact ⟨trivial, trivial⟩
  · exact portable_total (htags _ (by simp)) _
  · exact portable_total (htags _ (by simp)) _
  · exact ⟨trivial, trivial⟩
  · exact portable_total (htags _ (by simp)) _
  · exact portable_total (htags _ (by simp)) _

theorem foldlM_total {tag : String} {n : Nat} (r : FileRecord) :
    Progress.record? r (.total tag n) = some r := rfl

/-- The statements of a record, read into the empty record, make the record. -/
theorem foldlM_body (r : FileRecord) : r.body.foldlM Progress.record? .empty = some r := by
  obtain ⟨n, hline, hcalls⟩ := upsertAll?_functions r.functions (functionsByLine_perm r)
  have hbranches : OrderedMap.empty.upsertAll? (fun n taken => addTaken? (n.getD none) taken)
      r.branches.entries = some r.branches := upsertAll?_entries _ (fun v => rfl) r.branches
  have hlines : OrderedMap.empty.upsertAll? (fun n hits => addHits? (n.getD 0) hits)
      r.lines.entries = some r.lines := upsertAll?_entries _ addHits?_zero r.lines
  simp only [body, List.foldlM_append, Progress.foldlM_functionLine, FileRecord.empty, hline,
    Option.map_some, Option.bind_eq_bind, Option.bind_some, Progress.foldlM_functionHits, hcalls,
    List.foldlM_cons, List.foldlM_nil, foldlM_total, pure, Progress.foldlM_branchTaken, hbranches,
    Progress.foldlM_lineHits, hlines]

end FileRecord

namespace Progress

/-- A file behind all files of a report is read into the end of it. -/
theorem reads_file {report : Report} {path : Path} {r : FileRecord}
    (hlast : ∀ e ∈ report.files.entries, compare e.1 path = .lt) (hpath : LineTail path.text.toList)
    (hr : r.Portable) :
    Reads ⟨report, none⟩ ((r.statements path).map Statement.line)
      ⟨⟨report.files.insert path r⟩, none⟩ := by
  have hnew : report.files.get? path = none := OrderedMap.get?_eq_none_iff.2 fun e he h => by
    have hlt := hlast e he
    rw [Std.OrientedCmp.eq_symm h] at hlt
    cases hlt
  rw [FileRecord.statements_eq, List.map_append, List.map_append]
  have htest : Reads ⟨report, none⟩ [(Statement.remark "TN" "").line] ⟨report, none⟩ :=
    reads_line FileRecord.portable_testName rfl rfl
  have hsource : Reads ⟨report, none⟩ [(Statement.source path).line] ⟨report, some (path, .empty)⟩ :=
    reads_line hpath rfl rfl
  have hbody : Reads ⟨report, some (path, .empty)⟩ (r.body.map Statement.line)
      ⟨report, some (path, r)⟩ :=
    reads_within (FileRecord.portable_body hr) (FileRecord.foldlM_body r)
  have hfinish : Reads ⟨report, some (path, r)⟩ [Statement.finish.line]
      ⟨⟨report.files.insert path r⟩, none⟩ := by
    apply reads_line (s := .finish) trivial rfl
    simp [advance?, close?, Report.insert?, hnew]
  exact ((htest.append hsource).append hbody).append hfinish

end Progress

namespace Report

/-- Files in path order, all behind those of a report, are read into the end of it. -/
theorem reads_files : ∀ (es : List (Path × FileRecord)) (report : Report),
    (report.files.entries ++ es).Pairwise (fun a b => compare a.1 b.1 = .lt) →
    (∀ e ∈ es, LineTail e.1.text.toList ∧ e.2.Portable) →
    ∃ q : Report, q.files.entries = report.files.entries ++ es ∧
      Progress.Reads ⟨report, none⟩ ((es.flatMap fun e => e.2.statements e.1).map Statement.line)
        ⟨q, none⟩
  | [], report, _, _ => ⟨report, by simp, .nil _⟩
  | (path, r) :: es, report, hasc, hp => by
    -- what has been read stands before this file, so that reading it adds to the end
    have hlast : ∀ e ∈ report.files.entries, compare e.1 path = .lt := fun e he =>
      (List.pairwise_append.1 hasc).2.2 e he (path, r) List.mem_cons_self
    have hins := OrderedMap.entries_insert_last report.files path r hlast
    obtain ⟨hpath, hr⟩ := hp _ List.mem_cons_self
    obtain ⟨q, hq, hreads⟩ := reads_files es ⟨report.files.insert path r⟩
      (by rw [hins, List.append_assoc]; exact hasc) fun e he => hp e (List.mem_cons_of_mem _ he)
    refine ⟨q, by rw [hq, hins, List.append_assoc]; rfl, ?_⟩
    rw [List.flatMap_cons, List.map_append]
    exact (Progress.reads_file hlast hpath hr).append hreads

theorem toList_render (r : Report) :
    r.render.toList = (r.statements.map Statement.line).flatMap (· ++ ['\n']) := by
  simp only [render, String.toList_join, pieces, List.flatMap_assoc, Statement.flatMap_pieces,
    List.flatMap_map]

theorem portable_statements {r : Report} (h : r.Portable) : ∀ s ∈ r.statements, s.Portable := by
  intro s hs
  obtain ⟨e, he, hs⟩ := List.mem_flatMap.1 hs
  obtain ⟨hpath, hr⟩ := h e he
  rw [FileRecord.statements_eq] at hs
  simp only [List.mem_append, List.mem_cons, List.not_mem_nil, or_false] at hs
  rcases hs with ((rfl | rfl) | hs) | rfl
  · exact FileRecord.portable_testName
  · exact hpath
  · exact (FileRecord.portable_body hr s hs).1
  · trivial

/-- A portable report is read back from its tracefile. -/
theorem parse_render {r : Report} (h : r.Portable) : Report.parse r.render = .ok r := by
  have hlines : Text.lines r.render.toList = r.statements.map Statement.line := by
    rw [toList_render]
    apply lines_terminated
    intro l hl
    obtain ⟨s, hs, rfl⟩ := List.mem_map.1 hl
    exact Statement.lineTail_line (portable_statements h s hs)
  obtain ⟨q, hq, hreads⟩ := reads_files r.files.entries .empty
    (by simpa [Report.empty] using r.files.ascending) h
  have hqr : q = r := by
    cases q; cases r
    exact congrArg Report.mk (OrderedMap.eq_of_entries hq)
  unfold parse
  rw [hlines, show Progress.start = ⟨.empty, none⟩ from rfl, statements, hreads 1, hqr]
  rfl

end Report

/-! ## What is read is portable -/

/-- What every step of a fold keeps, the fold keeps. -/
theorem foldlM_keeps {α β : Type} {f : β → α → Option β} {P : β → Prop} :
    ∀ {l : List α} {b b' : β}, (∀ b a b', a ∈ l → P b → f b a = some b' → P b') → P b →
      l.foldlM f b = some b' → P b'
  | [], _, _, _, hb, h => by cases h; exact hb
  | a :: l, b, b', hstep, hb, h => by
    rw [List.foldlM_cons] at h
    obtain ⟨c, hc, h⟩ := Option.bind_eq_some_iff.1 h
    exact foldlM_keeps (fun b a b' ha => hstep b a b' (List.mem_cons_of_mem _ ha))
      (hstep b a c List.mem_cons_self hb hc) h

namespace FileRecord

theorem portable_empty : FileRecord.empty.Portable := fun _ h => by cases h

/-- Writing a function under a portable name keeps a record portable. -/
theorem Portable.insert {r : FileRecord} {name : String} {f : FunctionRecord} (h : r.Portable)
    (hname : LineTail name.toList) :
    FileRecord.Portable { r with functions := r.functions.insert name f } := fun e he => by
  rcases OrderedMap.mem_insert he with he | ⟨-, rfl | ⟨f', he⟩⟩
  · exact h e he
  · exact hname
  · exact h (e.1, f') he

theorem Portable.addLine? {r r' : FileRecord} {line : UInt32} {hits : UInt64} (h : r.Portable)
    (ha : r.addLine? line hits = some r') : r'.Portable := by
  obtain ⟨n, -, rfl⟩ := Option.map_eq_some_iff.1 ha
  exact h

theorem Portable.addBranch? {r r' : FileRecord} {id : BranchId} {taken : Option UInt64}
    (h : r.Portable) (ha : r.addBranch? id taken = some r') : r'.Portable := by
  obtain ⟨n, -, rfl⟩ := Option.map_eq_some_iff.1 ha
  exact h

theorem Portable.addCalls? {r r' : FileRecord} {name : String} {line : UInt32} {hits : UInt64}
    (h : r.Portable) (hname : LineTail name.toList) (ha : r.addCalls? name line hits = some r') :
    r'.Portable := by
  obtain ⟨n, -, rfl⟩ := Option.map_eq_some_iff.1 ha
  exact h.insert hname

/-- A statement with portable texts keeps a record portable. -/
theorem Portable.record? {r r' : FileRecord} {s : Statement} (h : r.Portable) (hs : s.Portable)
    (ha : Progress.record? r s = some r') : r'.Portable := by
  cases s with
  | lineHits line hits => exact h.addLine? ha
  | branchTaken id taken => exact h.addBranch? ha
  | functionLine line name => cases ha; exact h.insert hs
  | functionHits hits name => exact h.addCalls? hs ha
  | _ => cases ha; exact h

theorem Portable.merge? {r s m : FileRecord} (hr : r.Portable) (hs : s.Portable)
    (h : r.merge? s = some m) : m.Portable := by
  -- only the last of the three folds writes names
  obtain ⟨a, ha, h⟩ := Option.bind_eq_some_iff.1 h
  obtain ⟨b, hb, h⟩ := Option.bind_eq_some_iff.1 h
  have hap : a.Portable := foldlM_keeps (fun _ _ _ _ hp h => hp.addLine? h) hr ha
  have hbp : b.Portable := foldlM_keeps (fun _ _ _ _ hp h => hp.addBranch? h) hap hb
  exact foldlM_keeps (fun _ e _ he hp h => hp.addCalls? (hs e he) h) hbp h

end FileRecord

theorem Report.Portable.insert? {r r' : Report} {path : Path} {record : FileRecord}
    (h : r.Portable) (hpath : LineTail path.text.toList) (hrecord : record.Portable)
    (ha : r.insert? path record = some r') : r'.Portable := by
  have hinsert : ∀ m : FileRecord, m.Portable → Report.Portable ⟨r.files.insert path m⟩ := by
    intro m hm e he
    rcases OrderedMap.mem_insert he with he | ⟨hv, hk⟩
    · exact h e he
    refine ⟨?_, hv ▸ hm⟩
    rcases hk with hk | ⟨v', he⟩
    · exact hk ▸ hpath
    · exact (h _ he).1
  unfold Report.insert? at ha
  split at ha
  · cases ha; exact hinsert record hrecord
  · rename_i known hknown
    obtain ⟨m, hm, rfl⟩ := Option.map_eq_some_iff.1 ha
    obtain ⟨k, hk, -⟩ := OrderedMap.exists_of_get? hknown
    exact hinsert m ((h _ hk).2.merge? hrecord hm)

namespace Progress

/-- A reading whose report and open record are portable. -/
structure Portable (p : Progress) : Prop where
  report : p.report.Portable
  current : ∀ c, p.current = some c → LineTail c.1.text.toList ∧ c.2.Portable

theorem Portable.start : Progress.start.Portable where
  report := fun _ h => by cases h
  current := fun _ h => by cases h

theorem Portable.close? {p : Progress} {r : Report} (h : p.Portable) (hc : p.close? = some r) :
    r.Portable := by
  unfold Progress.close? at hc
  split at hc
  · cases hc; exact h.report
  · rename_i path record hcur
    obtain ⟨hpath, hrecord⟩ := h.current _ hcur
    exact h.report.insert? hpath hrecord hc

/-- A statement with portable texts keeps a reading portable. -/
theorem Portable.advance? {p q : Progress} {s : Statement} (h : p.Portable) (hs : s.Portable)
    (ha : p.advance? (.statement s) = some q) : q.Portable := by
  cases s with
  | source path =>
    obtain ⟨r, hr, rfl⟩ := Option.map_eq_some_iff.1 ha
    refine ⟨h.close? hr, fun c hc => ?_⟩
    cases hc
    exact ⟨hs, FileRecord.portable_empty⟩
  | finish =>
    obtain ⟨r, hr, rfl⟩ := Option.map_eq_some_iff.1 ha
    exact ⟨h.close? hr, fun c hc => by cases hc⟩
  | _ =>
    simp only [Progress.advance?] at ha
    split at ha
    · cases ha; exact h
    · rename_i path record hcur
      obtain ⟨record', hr, rfl⟩ := Option.map_eq_some_iff.1 ha
      obtain ⟨hpath, hrecord⟩ := h.current _ hcur
      refine ⟨h.report, fun c hc => ?_⟩
      cases hc
      exact ⟨hpath, hrecord.record? hs hr⟩

theorem Portable.step {number : Nat} {p q : Progress} {l : List Char} (h : p.Portable)
    (hl : '\n' ∉ l) (hs : p.step number l = .ok q) : q.Portable := by
  rw [step_eq] at hs
  split at hs
  · cases hs
  cases ha : p.advance? (Statement.read l) with
  | none => rw [ha] at hs; cases hs
  | some q' =>
    rw [ha] at hs
    cases hs
    cases hr : Statement.read l with
    | statement s => rw [hr] at ha; exact h.advance? (Statement.portable_of_read hl hr) ha
    | _ => rw [hr] at ha; cases ha; exact h

theorem Portable.steps : ∀ {ls : List (List Char)} {number : Nat} {p q : Progress}, p.Portable →
    (∀ l ∈ ls, '\n' ∉ l) → p.steps number ls = .ok q → q.Portable
  | [], _, _, _, h, _, hs => by cases hs; exact h
  | l :: ls, number, p, q, h, hl, hs => by
    unfold Progress.steps at hs
    cases hp : p.step number l with
    | error e => rw [hp] at hs; cases hs
    | ok p' =>
      rw [hp] at hs
      exact (h.step (hl l List.mem_cons_self) hp).steps
        (fun l' hl' => hl l' (List.mem_cons_of_mem _ hl')) hs

end Progress

namespace Report

/-- Whatever a text is read as is portable. -/
theorem portable_of_parse {text : String} {r : Report} (h : Report.parse text = .ok r) :
    r.Portable := by
  unfold parse at h
  cases hs : Progress.start.steps 1 (Text.lines text.toList) with
  | error e => rw [hs] at h; cases h
  | ok p =>
    rw [hs] at h
    have hp : p.Portable := Progress.Portable.start.steps (fun _ => not_mem_of_mem_lines) hs
    cases hc : p.close? with
    | none => simp only [bind, Except.bind, hc] at h; cases h
    | some r' => simp only [bind, Except.bind, hc] at h; cases h; exact hp.close? hc

/-- Portable reports are read back from their tracefiles, octet for octet, and the reports that can
be read are the portable ones: so what was read once is read again from its own tracefile. -/
theorem round_trip :
    (∀ r : Report, r.Portable →
      parse r.render = .ok r ∧ (parse r.render).map octets = .ok r.octets) ∧
    ∀ (text : String) (r : Report), parse text = .ok r →
      r.Portable ∧ parse r.render = .ok r ∧ (parse r.render).map octets = .ok r.octets := by
  have hback : ∀ r : Report, r.Portable →
      parse r.render = .ok r ∧ (parse r.render).map octets = .ok r.octets := by
    intro r hr
    have h := parse_render hr
    exact ⟨h, by rw [h]; rfl⟩
  refine ⟨hback, fun text r h => ?_⟩
  have hr := portable_of_parse h
  exact ⟨hr, hback r hr⟩

/-- A report with all that is hard to write: a file without a path, a function without a name and
one whose name holds separators, a function of which only calls are known, and a branch without a
count. -/
def corners : Report :=
  ⟨.ofList [(⟨""⟩, ⟨.ofList [(4, 1000)], .ofList [(⟨1, 0, 1⟩, none)],
    .ofList [("", ⟨3, 0⟩), (" a,b:c", ⟨0, 2⟩)]⟩)]⟩

theorem round_trip_corners :
    corners.Portable ∧ parse corners.render = .ok corners ∧
      parse "SF:\nDA:4,1e3\nFN:3,\nFNDA:2, a,b:c \r\nBRDA:1,0,1,-" = .ok corners ∧
      (parse corners.render).map octets = .ok corners.octets := by
  have hp : corners.Portable := by decide +kernel
  have hr : parse "SF:\nDA:4,1e3\nFN:3,\nFNDA:2, a,b:c \r\nBRDA:1,0,1,-" = .ok corners := by
    decide +kernel
  exact ⟨hp, (round_trip.1 corners hp).1, hr, (round_trip.2 _ corners hr).2.2⟩

end Report

end CoverageRun.Coverage
