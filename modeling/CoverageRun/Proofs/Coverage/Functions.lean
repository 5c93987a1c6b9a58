/-
Where functions stand. Within a record the last entry with a line decides, and a function that is
only counted has the line zero until then. Across the records of a file the first one that mentions
the function decides, whatever the later ones say. So a function has the line that its entries give
it exactly if one of them is in the first record of its file that mentions it.
-/
import CoverageRun.Proofs.Coverage.Counting

namespace CoverageRun.Coverage

open Statement (Reading)

/-! ## The records of a text -/

/-- A record as it stands in a text: the file it is of, and what is said in it. -/
structure Block where
  path : Path
  statements : List Statement

/-- The records of lines, the one that is open before them first. -/
def blocksFrom (opened : Option Block) : List Reading → List Block
  | [] => opened.toList
  | .statement (.source path) :: rest => opened.toList ++ blocksFrom (some ⟨path, []⟩) rest
  | .statement .finish :: rest => opened.toList ++ blocksFrom none rest
  | .statement s :: rest => blocksFrom (opened.map fun b => ⟨b.path, b.statements ++ [s]⟩) rest
  | _ :: rest => blocksFrom opened rest

/-- The records of one file in a text, in order. -/
def blocksOf (text : String) (path : Path) : List Block :=
  (blocksFrom none (readings text)).filter fun b => b.path.parts = path.parts

/-- What a statement says of a function: the line it stands at, or only that it was called. -/
def Statement.mention? (name : String) : Statement → Option (Option UInt32)
  | .functionLine line n => if n = name then some (some line) else none
  | .functionHits _ n => if n = name then some none else none
  | _ => none

namespace Block

/-- What a record says of a function. -/
def mentions (b : Block) (name : String) : List (Option UInt32) :=
  b.statements.filterMap (Statement.mention? name)

/-- The lines that a record gives a function. -/
def lines (b : Block) (name : String) : List UInt32 := (b.mentions name).filterMap id

/-- The line that a function has after a record that mentions it: the last one, or zero. -/
def line? (b : Block) (name : String) : Option UInt32 :=
  if b.mentions name = [] then none else some ((b.lines name).getLast?.getD 0)

end Block

/-! ## Within a record -/

/-- The line of a function after one more mention, if it is one. -/
def lineAfter (line : Option UInt32) : Option (Option UInt32) → Option UInt32
  | none => line
  | some none => some (line.getD 0)
  | some (some given) => some given

theorem Block.line?_append (path : Path) (ss : List Statement) (s : Statement) (name : String) :
    Block.line? ⟨path, ss ++ [s]⟩ name = lineAfter (Block.line? ⟨path, ss⟩ name) (s.mention? name) := by
  simp only [Block.line?, lines, mentions, List.filterMap_append]
  rcases hs : s.mention? name with _ | _ | given
  · simp [hs, lineAfter]
  · by_cases hnone : ss.filterMap (Statement.mention? name) = [] <;> simp [hs, lineAfter, hnone]
  · simp [hs, lineAfter]

namespace FileRecord

def line? (r : FileRecord) (name : String) : Option UInt32 := (r.functions.get? name).map (·.line)

/-- A function that is called stays where it is. -/
theorem line?_addCalls? {r r' : FileRecord} {name : String} {line : UInt32} {hits : UInt64}
    (h : r.addCalls? name line hits = some r') (name' : String) :
    r'.line? name' = if name = name' then some ((r.line? name').getD line) else r.line? name' := by
  obtain ⟨n, -, rfl⟩ := Option.map_eq_some_iff.1 h
  by_cases heq : name = name'
  · subst heq
    simp only [line?, Store.OrderedMap.get?_insert_self, if_true, Option.map_some]
    cases r.functions.get? name <;> rfl
  · rw [if_neg heq]
    exact congrArg (Option.map _) (Store.OrderedMap.get?_insert_of_ne _ _ (Ne.symm heq))

theorem line?_placeFunction (r : FileRecord) (name : String) (line : UInt32) (name' : String) :
    (r.placeFunction name line).line? name' = if name = name' then some line else r.line? name' := by
  by_cases heq : name = name'
  · subst heq
    simp [line?, placeFunction, Store.OrderedMap.upsert, Store.OrderedMap.get?_insert_self]
  · rw [if_neg heq]
    exact congrArg (Option.map _) (Store.OrderedMap.get?_insert_of_ne _ _ (Ne.symm heq))

theorem line?_record? {r r' : FileRecord} {s : Statement} (h : Progress.record? r s = some r')
    (name : String) : r'.line? name = lineAfter (r.line? name) (s.mention? name) := by
  cases s with
  | functionLine line n =>
    cases h
    rw [line?_placeFunction]
    by_cases heq : n = name <;> simp [Statement.mention?, heq, lineAfter]
  | functionHits hits n =>
    rw [line?_addCalls? h]
    by_cases heq : n = name <;> simp [Statement.mention?, heq, lineAfter]
  | lineHits line hits =>
    obtain ⟨n, -, rfl⟩ := Option.map_eq_some_iff.1 h
    rfl
  | branchTaken id taken =>
    obtain ⟨n, -, rfl⟩ := Option.map_eq_some_iff.1 h
    rfl
  | _ => cases h; rfl

/-! ## Across records -/

theorem functions_foldlM {ε : Type} {add : FileRecord → ε → Option FileRecord}
    (hadd : ∀ r e r', add r e = some r' → r'.functions = r.functions) :
    ∀ (es : List ε) {r r' : FileRecord}, es.foldlM add r = some r' → r'.functions = r.functions
  | [], r, r', h => by cases h; rfl
  | e :: es, r, r', h => by
    obtain ⟨r₁, h₁, h⟩ := Option.bind_eq_some_iff.1 h
    exact (functions_foldlM hadd es h).trans (hadd r e r₁ h₁)

/-- Functions that are added have their own line only if they are new. -/
theorem line?_foldlM_addCalls? (name : String) : ∀ (es : List (String × FunctionRecord))
    {r r' : FileRecord}, es.foldlM (fun r e => r.addCalls? e.1 e.2.line e.2.hits) r = some r' →
    r'.line? name =
      (r.line? name).or ((es.find? fun e => compare name e.1 == .eq).map fun e => e.2.line)
  | [], r, r', h => by cases h; simp
  | e :: es, r, r', h => by
    obtain ⟨r₁, h₁, h⟩ := Option.bind_eq_some_iff.1 h
    rw [line?_foldlM_addCalls? name es h, line?_addCalls? h₁, List.find?_cons]
    by_cases heq : e.1 = name
    · have hcompare : compare name e.1 = .eq := heq ▸ Std.ReflCmp.compare_self
      simp only [if_pos heq, hcompare, beq_self_eq_true]
      cases r.line? name <;> rfl
    · have hcompare : (compare name e.1 == .eq) = false :=
        beq_eq_false_iff_ne.2 fun h => heq (Std.LawfulEqOrd.eq_of_compare h).symm
      simp only [if_neg heq, hcompare]

/-- Of two records that are put together the first decides, if it has the function. -/
theorem line?_merge? {r s m : FileRecord} (h : r.merge? s = some m) (name : String) :
    m.line? name = (r.line? name).or (s.line? name) := by
  obtain ⟨r₁, hlines, h⟩ := Option.bind_eq_some_iff.1 h
  obtain ⟨r₂, hbranches, hfunctions⟩ := Option.bind_eq_some_iff.1 h
  -- lines and branches come first, and leave the functions as they are
  have hkept : r₂.functions = r.functions := by
    refine (functions_foldlM ?_ _ hbranches).trans (functions_foldlM ?_ _ hlines)
    · intro r e r' h
      obtain ⟨n, -, rfl⟩ := Option.map_eq_some_iff.1 h
      rfl
    · intro r e r' h
      obtain ⟨n, -, rfl⟩ := Option.map_eq_some_iff.1 h
      rfl
  rw [line?_foldlM_addCalls? name _ hfunctions]
  simp only [line?, hkept, Store.OrderedMap.get?, Option.map_map]
  rfl

end FileRecord

namespace Report

def line? (r : Report) (path : Path) (name : String) : Option UInt32 :=
  (r.file? path).bind (·.line? name)

/-- A record that is put into a report gives lines to the functions of its file that have none. -/
theorem line?_insert? {r r' : Report} {path : Path} {record : FileRecord}
    (h : r.insert? path record = some r') (path' : Path) (name : String) :
    r'.line? path' name = (r.line? path' name).or
      (if path.parts = path'.parts then record.line? name else none) := by
  have hwritten : ∀ f, (⟨r.files.insert path f⟩ : Report).line? path' name =
      if path.parts = path'.parts then f.line? name else r.line? path' name := by
    intro f
    simp only [line?, file?, Store.OrderedMap.get?_insert, compare_eq_iff, eq_comm (a := path'.parts)]
    split <;> rfl
  unfold insert? at h
  by_cases heq : path.parts = path'.parts
  · have hfile : r.files.get? path' = r.files.get? path := r.files.get?_congr (compare_eq_iff.2 heq.symm)
    cases hknown : r.files.get? path with
    | none =>
      -- a file that is new has its lines from this record alone
      rw [hknown] at h hfile
      cases h
      rw [hwritten, if_pos heq, if_pos heq]
      simp [line?, file?, hfile]
    | some known =>
      rw [hknown] at h hfile
      obtain ⟨m, hm, rfl⟩ := Option.map_eq_some_iff.1 h
      rw [hwritten, if_pos heq, if_pos heq, FileRecord.line?_merge? hm]
      simp [line?, file?, hfile]
  · rw [if_neg heq, Option.or_none]
    split at h
    · cases h
      rw [hwritten, if_neg heq]
    · obtain ⟨m, -, rfl⟩ := Option.map_eq_some_iff.1 h
      rw [hwritten, if_neg heq]

end Report

/-! ## While a text is read -/

/-- The line that the first of some records gives which mentions the function. -/
def firstLine? (blocks : List Block) (path : Path) (name : String) : Option UInt32 :=
  (blocks.filter fun b => b.path.parts = path.parts).findSome? (·.line? name)

theorem firstLine?_append (blocks blocks' : List Block) (path : Path) (name : String) :
    firstLine? (blocks ++ blocks') path name =
      (firstLine? blocks path name).or (firstLine? blocks' path name) := by
  rw [firstLine?, List.filter_append, List.findSome?_append]
  rfl

namespace Progress

/-- The record that is open gives a function the line that it gives it in the text. -/
def OpenAs (p : Progress) (b : Option Block) (name : String) : Prop :=
  Option.Rel (fun c b => c.1 = b.path ∧ c.2.line? name = b.line? name) p.current b

theorem OpenAs.close? {p : Progress} {b : Option Block} {name : String} (hb : p.OpenAs b name)
    {r : Report} (h : p.close? = some r) (path : Path) :
    r.line? path name = (p.report.line? path name).or (firstLine? b.toList path name) := by
  obtain ⟨report, current⟩ := p
  cases hb with
  | none =>
    cases h
    simp [firstLine?]
  | @some c b hc =>
    rw [Report.line?_insert? h path name, hc.1, hc.2]
    by_cases heq : b.path.parts = path.parts <;> simp [firstLine?, heq]

theorem OpenAs.data {p q : Progress} {b : Option Block} {name : String} {s : Statement}
    (hb : p.OpenAs b name)
    (h : (match p.current with
      | none => some p
      | some (path, record) => (record? record s).map fun record => ⟨p.report, some (path, record)⟩) =
        some q) :
    q.report = p.report ∧ q.OpenAs (b.map fun b => ⟨b.path, b.statements ++ [s]⟩) name := by
  obtain ⟨report, current⟩ := p
  cases hb with
  | none =>
    cases h
    exact ⟨rfl, .none⟩
  | @some c b hc =>
    obtain ⟨record, hrecord, rfl⟩ := Option.map_eq_some_iff.1 h
    refine ⟨rfl, .some ⟨hc.1, ?_⟩⟩
    rw [FileRecord.line?_record? hrecord, Block.line?_append, hc.2]

/-- The reading of lines gives a function the line that the first of their records gives it. -/
theorem line?_of_steps (path : Path) (name : String) :
    ∀ (lines : List (List Char)) (number : Nat) (p q : Progress) (b : Option Block) (r : Report),
      p.OpenAs b name → p.steps number lines = .ok q → q.close? = some r →
      r.line? path name = (p.report.line? path name).or
        (firstLine? (blocksFrom b (lines.map Statement.read)) path name)
  | [], number, p, q, b, r, hb, hq, hr => by
    cases hq
    exact hb.close? hr path
  | line :: rest, number, p, q, b, r, hb, hq, hr => by
    simp only [steps, step_eq, List.map_cons] at hq ⊢
    split at hq
    · cases hq
    cases ha : p.advance? (Statement.read line) with
    | none => rw [ha] at hq; cases hq
    | some p₁ =>
      rw [ha] at hq
      -- what is open after this line is what the text has open there
      have hrest := fun b' hb' => line?_of_steps path name rest (number + 1) p₁ q b' r hb' hq hr
      cases hread : Statement.read line with
      | blank =>
        rw [hread] at ha
        cases ha
        exact hrest b hb
      | broken fault =>
        rw [hread] at ha
        cases ha
        exact hrest b hb
      | statement s =>
        rw [hread] at ha
        cases s with
        | source opened =>
          obtain ⟨report, hreport, rfl⟩ := Option.map_eq_some_iff.1 ha
          rw [hrest (some ⟨opened, []⟩) (.some ⟨rfl, rfl⟩), hb.close? hreport path, blocksFrom,
            firstLine?_append, Option.or_assoc]
        | finish =>
          obtain ⟨report, hreport, rfl⟩ := Option.map_eq_some_iff.1 ha
          rw [hrest none .none, hb.close? hreport path, blocksFrom, firstLine?_append, Option.or_assoc]
        | _ =>
          obtain ⟨hreport, hb'⟩ := hb.data ha
          rw [hrest _ hb', hreport]
          rfl

end Progress

/-! ## Lines of functions -/

namespace Report

/-- The first record of a file that mentions a function gives it its line. -/
theorem line?_of_parse {text : String} {r : Report} (h : parse text = .ok r) (path : Path)
    (name : String) : r.line? path name = (blocksOf text path).findSome? (·.line? name) := by
  unfold parse at h
  cases hp : Progress.start.steps 1 (Text.lines text.toList) with
  | error e => rw [hp] at h; cases h
  | ok p =>
    rw [hp] at h
    cases hc : p.close? with
    | none => simp only [bind, Except.bind, hc] at h; cases h
    | some r' =>
      simp only [bind, Except.bind, hc] at h
      cases h
      exact Progress.line?_of_steps path name _ 1 .start p none r .none hp hc

theorem findSome?_line? {name : String} {b : Block} : ∀ {blocks : List Block},
    blocks.find? (fun b => b.mentions name ≠ []) = some b →
      blocks.findSome? (·.line? name) = some ((b.lines name).getLast?.getD 0)
  | b' :: blocks, h => by
    rw [List.find?_cons] at h
    rw [List.findSome?_cons]
    by_cases hb : b'.mentions name = []
    · rw [show b'.line? name = none from if_pos hb]
      simp only [hb, ne_eq, not_true_eq_false, decide_false] at h
      exact findSome?_line? h
    · rw [show b'.line? name = some _ from if_neg hb]
      simp only [ne_eq, hb, not_false_eq_true, decide_true, Option.some.injEq] at h
      rw [h]

/-- The lines that the records of a file in a text give a function. -/
def linesOf (text : String) (path : Path) (name : String) : List UInt32 :=
  (blocksOf text path).flatMap (·.lines name)

/-- A function that is given one line only, however often and in whichever records of its file, has
it exactly if the first of these records that mentions the function gives it, or if the line is zero;
it has the line zero if that record does not. -/
theorem parse_functionLine {text : String} {r : Report} (h : parse text = .ok r) (path : Path)
    (name : String) {line : UInt32} (hgiven : line ∈ linesOf text path name)
    (hone : ∀ l ∈ linesOf text path name, l = line) :
    ∃ record f b, r.file? path = some record ∧ record.functions.get? name = some f ∧
      (blocksOf text path).find? (fun b => b.mentions name ≠ []) = some b ∧
      (f.line = line ↔ line ∈ b.lines name ∨ line = 0) ∧ (line ∉ b.lines name → f.line = 0) := by
  -- some record of the file mentions the function, so there is a first one
  obtain ⟨b', hb', hline⟩ := List.mem_flatMap.1 hgiven
  have hmentions : b'.mentions name ≠ [] := by
    rintro hnone
    simp [Block.lines, hnone] at hline
  obtain ⟨b, hfirst⟩ := Option.isSome_iff_exists.1
    (List.find?_isSome (p := fun b => b.mentions name ≠ [])|>.2 ⟨b', hb', by simpa using hmentions⟩)
  have hlast := (line?_of_parse h path name).trans (findSome?_line? hfirst)
  obtain ⟨record, hrecord, hfunction⟩ := Option.bind_eq_some_iff.1 hlast
  obtain ⟨f, hf, hfline⟩ := Option.map_eq_some_iff.1 hfunction
  refine ⟨record, f, b, hrecord, hf, hfirst, ?_⟩
  have hmem : ∀ l ∈ b.lines name, l = line := fun l hl =>
    hone l (List.mem_flatMap.2 ⟨b, List.mem_of_find?_eq_some hfirst, hl⟩)
  rw [hfline]
  cases hlines : (b.lines name).getLast? with
  | none =>
    rw [List.getLast?_eq_none_iff] at hlines
    simp [hlines, eq_comm]
  | some l =>
    have hl := List.mem_of_getLast? hlines
    obtain rfl := hmem l hl
    simp [hl]

/-- A function that is called before its line is given, in the same record, and again in another. -/
def calledEarly : String := "SF:a\nFNDA:1,f\nFN:5,f\nend_of_record\nSF:a\nFNDA:2,f"

theorem parse_functionLine_calledEarly : ∃ r record f, parse calledEarly = .ok r ∧
    r.file? ⟨"a"⟩ = some record ∧ record.functions.get? "f" = some f ∧ f.line = 5 := by
  have hparse : parse calledEarly = .ok ⟨.ofList [(⟨"a"⟩, ⟨.empty, .empty,
      .ofList [("f", ⟨5, 3⟩)]⟩)]⟩ := by decide +kernel
  have hlines : linesOf calledEarly ⟨"a"⟩ "f" = [5] := by decide +kernel
  have hgiven : 5 ∈ linesOf calledEarly ⟨"a"⟩ "f" := by simp [hlines]
  have hfirst : ((blocksOf calledEarly ⟨"a"⟩).find? fun b => b.mentions "f" ≠ []).map
      (·.lines "f") = some [5] := by decide +kernel
  obtain ⟨record, f, b, hrecord, hf, hb, hline, -⟩ :=
    parse_functionLine hparse ⟨"a"⟩ "f" hgiven (by simp [hlines])
  rw [hb] at hfirst
  have hplaced : b.lines "f" = [5] := Option.some.inj hfirst
  exact ⟨_, record, f, hparse, hrecord, hf, hline.2 (.inl (hplaced ▸ List.mem_singleton.2 rfl))⟩

/-- A function that is only called in the first record of its file, and given its line in the
second. -/
def calledElsewhere : String := "SF:a\nFNDA:1,f\nend_of_record\nSF:a\nFN:5,f\nend_of_record\n"

theorem line_lost_across_records : linesOf calledElsewhere ⟨"a"⟩ "f" = [5] ∧
    ∃ r, parse calledElsewhere = .ok r ∧ r.line? ⟨"a"⟩ "f" = some 0 := by
  have hparse : parse calledElsewhere = .ok ⟨.ofList [(⟨"a"⟩, ⟨.empty, .empty,
      .ofList [("f", ⟨0, 1⟩)]⟩)]⟩ := by decide +kernel
  exact ⟨by decide +kernel, _, hparse, by decide +kernel⟩

end Report

end CoverageRun.Coverage
