/-
Reports as stores of files. Whatever records are put in and whatever files are taken out, a report
has no path twice and keeps them in order; a record that is put in adds its counts to those of its
file, key by key, and touches no other file; taking files out leaves the rest as it is; and the order
in which records are put in does not show in the counts.
-/
import CoverageRun.Proofs.Coverage.Functions

namespace CoverageRun.Coverage

open Store

namespace Report

variable {r r' : Report} {path : Path} {record : FileRecord}

/-! ## Files -/

/-- A file is found under every spelling of its path. -/
theorem file?_eq_some_iff {f : FileRecord} :
    r.file? path = some f ↔ ∃ p, (p, f) ∈ r.files.entries ∧ p.parts = path.parts := by
  rw [file?, OrderedMap.get?_eq_some_iff]
  exact exists_congr fun p => and_congr_right fun _ => compare_eq_iff.trans eq_comm

theorem file?_eq_none_iff :
    r.file? path = none ↔ ∀ e ∈ r.files.entries, compare path e.1 ≠ .eq :=
  OrderedMap.get?_eq_none_iff

theorem count?_congr (r : Report) {p q : Path} (h : p.parts = q.parts) (key : Key) :
    r.count? p key = r.count? q key :=
  congrArg (Option.bind · _) (r.files.get?_congr (compare_eq_iff.2 h))

/-! ## Records put in -/

/-- A record is written as it is where there was none, and put together with the one that was. -/
theorem exists_of_insert? (h : r.insert? path record = some r') :
    ∃ f, r' = ⟨r.files.insert path f⟩ ∧ (r.file? path = none → f = record) := by
  unfold insert? at h
  split at h
  · cases h
    exact ⟨record, rfl, fun _ => rfl⟩
  · rename_i known hknown
    obtain ⟨merged, -, rfl⟩ := Option.map_eq_some_iff.1 h
    exact ⟨merged, rfl, fun hnone => by rw [file?, hknown] at hnone; cases hnone⟩

/-- Whether the counts of a record and those of a file have sums with a place in 64 bits. -/
def Fits (r : Report) (path : Path) (record : FileRecord) : Prop :=
  ∀ key, (r.tally (path, key) + record.tally key).hits < UInt64.size

theorem isSome_insert?_iff : (r.insert? path record).isSome ↔ r.Fits path record := by
  have hsums := r.sums_insert? path record
  cases hinsert : r.insert? path record with
  | some r' =>
    rw [hinsert] at hsums
    refine iff_of_true rfl fun key => ?_
    have hkey : r'.tally (path, key) = r.tally (path, key) + record.tally key := by
      simpa [spread] using congrFun hsums (path, key)
    rw [← hkey]
    exact Tally.hits_ofCount_lt _
  | none =>
    rw [hinsert] at hsums
    obtain ⟨⟨p, key⟩, hlarge⟩ := hsums
    refine iff_of_false Bool.false_ne_true fun hfits => ?_
    simp only [spread] at hlarge
    split at hlarge
    · rename_i hp
      rw [tally, r.count?_congr hp key] at hlarge
      exact absurd (hfits key) (Nat.not_lt.2 hlarge)
    · -- nothing is added to other files, and what they have has its place
      rw [add_zero] at hlarge
      exact absurd (Tally.hits_ofCount_lt _) (Nat.not_lt.2 hlarge)

/-- What a report is like after a record was put into it. -/
structure Inserted (r : Report) (path : Path) (record : FileRecord) (r' : Report) : Prop where
  others : ∀ e : Path × FileRecord, e.1.parts ≠ path.parts →
    (e ∈ r'.files.entries ↔ e ∈ r.files.entries)
  known : (∃ p ∈ r.paths, p.parts = path.parts) → r'.paths = r.paths
  new : (∀ p ∈ r.paths, p.parts ≠ path.parts) → (path, record) ∈ r'.files.entries
  counts : ∀ key, r'.tally (path, key) = r.tally (path, key) + record.tally key
  keys : ∀ key, (r'.count? path key).isSome ↔
    (r.count? path key).isSome ∨ (record.count? key).isSome
  lines : ∀ name, r'.line? path name = (r.line? path name).or (record.line? name)

theorem inserted (h : r.insert? path record = some r') : Inserted r path record r' := by
  obtain ⟨f, hr', hnew⟩ := exists_of_insert? h
  have hcounts : ∀ key, r'.tally (path, key) = r.tally (path, key) + record.tally key := by
    intro key
    have hsums := r.sums_insert? path record
    rw [h] at hsums
    simpa [spread] using congrFun hsums (path, key)
  constructor
  case others =>
    intro e he
    rw [hr']
    exact OrderedMap.mem_insert_iff_of_ne fun heq => he (compare_eq_iff.1 heq)
  case known =>
    rintro ⟨p, hp, heq⟩
    rw [hr']
    exact OrderedMap.keys_insert_of_mem f hp (compare_eq_iff.2 heq.symm)
  case new =>
    intro hnone
    have hpath : ∀ e ∈ r.files.entries, compare path e.1 ≠ .eq := fun e he heq =>
      hnone e.1 (List.mem_map_of_mem he) (compare_eq_iff.1 heq).symm
    rw [hr', ← hnew (file?_eq_none_iff.2 hpath)]
    exact OrderedMap.mem_insert_self_of_absent f hpath
  case counts => exact hcounts
  case keys =>
    intro key
    have hsome : ∀ c : Option (Option UInt64), c.isSome ↔ Tally.ofCount c ≠ (0 : Tally) := by
      rintro (_ | c)
      · exact iff_of_false Bool.false_ne_true fun h => h rfl
      · exact iff_of_true rfl (Option.some_ne_none _)
    have hadd : ∀ a b : Tally, a + b ≠ 0 ↔ a ≠ 0 ∨ b ≠ 0 := by
      rintro (_ | a) (_ | b)
      · exact iff_of_false (fun h => h rfl) fun h => h.elim (· rfl) (· rfl)
      · exact iff_of_true (Option.some_ne_none _) (.inr (Option.some_ne_none _))
      · exact iff_of_true (Option.some_ne_none _) (.inl (Option.some_ne_none _))
      · exact iff_of_true (Option.some_ne_none _) (.inl (Option.some_ne_none _))
    rw [hsome, hsome, hsome]
    exact (iff_of_eq (congrArg (· ≠ 0) (hcounts key))).trans (hadd _ _)
  case lines =>
    intro name
    rw [line?_insert? h, if_pos rfl]

/-! ## Records put in one after another -/

/-- The report with several records put in, in order. -/
def insertAll? (r : Report) (es : List (Path × FileRecord)) : Option Report :=
  es.foldlM (fun r e => r.insert? e.1 e.2) r

theorem sums_insertAll? (r : Report) (es : List (Path × FileRecord)) :
    Sums tally r.tally (es.map fun e => spread e.1 e.2.tally).sum (r.insertAll? es) :=
  Sums.foldlM (fun r (e : Path × FileRecord) => r.sums_insert? e.1 e.2) es r

theorem isSome_file?_insertAll? (p : Path) : ∀ {es : List (Path × FileRecord)} {r r' : Report},
    r.insertAll? es = some r' →
      ((r'.file? p).isSome ↔ (r.file? p).isSome ∨ ∃ e ∈ es, e.1.parts = p.parts)
  | [], r, r', h => by cases h; simp
  | e :: es, r, r', h => by
    obtain ⟨r₁, h₁, h⟩ := Option.bind_eq_some_iff.1 h
    rw [isSome_file?_insertAll? p h, isSome_file?_insert? h₁]
    simp [or_assoc]

/-- The same records put in in another order give files with the same counts. -/
theorem insertAll?_perm {es es' : List (Path × FileRecord)} (hp : es.Perm es') {r₁ : Report}
    (h : r.insertAll? es = some r₁) :
    ∃ r₂, r.insertAll? es' = some r₂ ∧
      ∀ p, (r₂.file? p).map FileRecord.count? = (r₁.file? p).map FileRecord.count? := by
  have hadded : (es'.map fun e => spread e.1 e.2.tally).sum =
      (es.map fun e => spread e.1 e.2.tally).sum := ((hp.map _).sum_eq).symm
  have hsums₁ := r.sums_insertAll? es
  have hsums₂ := r.sums_insertAll? es'
  rw [h] at hsums₁
  rw [hadded] at hsums₂
  cases h₂ : r.insertAll? es' with
  | none =>
    -- a sum too large in one order is too large in the other
    rw [h₂] at hsums₂
    obtain ⟨x, hlarge⟩ := hsums₂
    have hx : r₁.tally x = r.tally x + _ := congrFun hsums₁ x
    rw [← hx] at hlarge
    exact absurd (Tally.hits_ofCount_lt _) (Nat.not_lt.2 hlarge)
  | some r₂ =>
    rw [h₂] at hsums₂
    refine ⟨r₂, rfl, fun p => ?_⟩
    have hcount : ∀ key, r₂.count? p key = r₁.count? p key :=
      count?_of_tally (hsums₂.trans hsums₁.symm) p
    have hfile : (r₂.file? p).isSome ↔ (r₁.file? p).isSome := by
      rw [isSome_file?_insertAll? p h₂, isSome_file?_insertAll? p h]
      exact or_congr_right (exists_congr fun e => and_congr_left' hp.mem_iff.symm)
    unfold count? at hcount
    cases h₁f : r₁.file? p with
    | none =>
      cases h₂f : r₂.file? p with
      | none => rfl
      | some f₂ => rw [h₁f, h₂f] at hfile; exact absurd (hfile.1 rfl) nofun
    | some f₁ =>
      cases h₂f : r₂.file? p with
      | none => rw [h₁f, h₂f] at hfile; exact absurd (hfile.2 rfl) nofun
      | some f₂ =>
        rw [h₁f, h₂f] at hcount
        exact congrArg some (funext hcount)

/-! ## Files taken out -/

/-- What a report is like after the files that fail a test were taken out, and how many they are. -/
structure Retained (r : Report) (keep : Path → Bool) : Prop where
  kept : ∀ e, e ∈ (r.retain keep).files.entries ↔ e ∈ r.files.entries ∧ keep e.1 = true
  dropped : r.dropped keep = (r.paths.filter fun p => !keep p).length

theorem retained (r : Report) (keep : Path → Bool) : Retained r keep where
  kept e := List.mem_filter
  dropped := by
    have hparts : r.size = (r.retain keep).size + (r.paths.filter fun p => !keep p).length := by
      have hlength := (List.filter_append_perm (fun e : Path × FileRecord => keep e.1)
        r.files.entries).length_eq
      have hfailed : (r.paths.filter fun p => !keep p).length =
          (r.files.entries.filter fun e => !keep e.1).length := by
        simp [paths, OrderedMap.keys, List.filter_map, Function.comp_def]
      rw [List.length_append] at hlength
      rw [hfailed]
      exact hlength.symm
    rw [Report.dropped, hparts, Nat.add_sub_cancel_left]

/-! ## Changes -/

/-- A change of a report. -/
inductive Change where
  | insert (path : Path) (record : FileRecord)
  | retain (keep : Path → Bool)

/-- The report after a change; `none` if a sum does not fit. -/
def change? (r : Report) : Change → Option Report
  | .insert path record => r.insert? path record
  | .retain keep => some (r.retain keep)

/-- The report after changes in order. -/
def changes? (r : Report) (cs : List Change) : Option Report := cs.foldlM change? r

theorem changes?_cons (r : Report) (c : Change) (cs : List Change) :
    r.changes? (c :: cs) = (r.change? c).bind (·.changes? cs) := List.foldlM_cons

/-- Changes stop only at a record whose counts do not fit. -/
theorem changes?_eq_none_iff : ∀ {cs : List Change} {r : Report}, r.changes? cs = none ↔
    ∃ before path record after r₁, cs = before ++ .insert path record :: after ∧
      r.changes? before = some r₁ ∧ ¬ r₁.Fits path record
  | [], r => by simp [changes?]
  | c :: cs, r => by
    rw [changes?_cons]
    constructor
    · intro h
      cases hc : r.change? c with
      | none =>
        cases c with
        | insert path record =>
          refine ⟨[], path, record, cs, r, rfl, rfl, fun hfits => ?_⟩
          have hsome := isSome_insert?_iff.2 hfits
          rw [show r.insert? path record = none from hc] at hsome
          cases hsome
        | retain keep => cases hc
      | some r₂ =>
        rw [hc] at h
        obtain ⟨before, path, record, after, r₁, rfl, hbefore, hfits⟩ := changes?_eq_none_iff.1 h
        exact ⟨c :: before, path, record, after, r₁, rfl, by rw [changes?_cons, hc]; exact hbefore,
          hfits⟩
    · rintro ⟨before, path, record, after, r₁, hcs, hbefore, hfits⟩
      cases before with
      | nil =>
        cases hbefore
        obtain ⟨rfl, rfl⟩ := List.cons.inj hcs
        have hnone : r.insert? path record = none := by
          rw [← Option.not_isSome_iff_eq_none, isSome_insert?_iff]
          exact hfits
        rw [show r.change? (.insert path record) = none from hnone]
        rfl
      | cons c' before =>
        obtain ⟨rfl, rfl⟩ := List.cons.inj hcs
        rw [changes?_cons] at hbefore
        obtain ⟨r₂, hc, hbefore⟩ := Option.bind_eq_some_iff.1 hbefore
        rw [hc]
        exact changes?_eq_none_iff.2 ⟨before, path, record, after, r₁, rfl, hbefore, hfits⟩

/-- What a report is as a store: no path stands in it twice, they stand in order and are found under
every spelling; and what comes of each change. -/
structure IsStore (r : Report) : Prop where
  ascending : r.paths.Pairwise fun p q => compare p.parts q.parts = .lt
  distinct : (r.paths.map Path.parts).Nodup
  found : ∀ path f, r.file? path = some f ↔
    ∃ p, (p, f) ∈ r.files.entries ∧ p.parts = path.parts
  fits : ∀ path record, (r.insert? path record).isSome ↔ r.Fits path record
  insert : ∀ path record r', r.insert? path record = some r' → Inserted r path record r'
  retain : ∀ keep, Retained r keep
  anyOrder : ∀ es es' r₁, es.Perm es' → r.insertAll? es = some r₁ → ∃ r₂,
    r.insertAll? es' = some r₂ ∧
      ∀ p, (r₂.file? p).map FileRecord.count? = (r₁.file? p).map FileRecord.count?

theorem isStore (r : Report) : IsStore r where
  ascending := List.pairwise_map.2 r.files.ascending
  distinct := by
    refine List.pairwise_map.2 (List.pairwise_map.2 (r.files.distinct.imp fun hne heq => hne ?_))
    exact compare_eq_iff.2 heq
  found _ _ := file?_eq_some_iff
  fits _ _ := isSome_insert?_iff
  insert _ _ _ := inserted
  retain := r.retained
  anyOrder _ _ _ hp h := insertAll?_perm hp h

/-- Changes of a report come to an end unless the counts of some record that is put in do not fit,
and what they come to is a store. -/
theorem changes_isStore (r : Report) (cs : List Change) :
    (r.changes? cs = none ↔ ∃ before path record after r₁,
      cs = before ++ .insert path record :: after ∧ r.changes? before = some r₁ ∧
        ¬ r₁.Fits path record) ∧
    ∀ r', r.changes? cs = some r' → IsStore r' :=
  ⟨changes?_eq_none_iff, fun r' _ => r'.isStore⟩

end Report

end CoverageRun.Coverage
