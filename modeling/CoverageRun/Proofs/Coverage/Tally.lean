/-
What records and reports count, key by key. A tally says whether a key occurs, whether it has a
count and what its counts add up to; tallies add up in any order. Whatever puts counts together adds
tallies, and gives nothing only where a sum has no place in 64 bits.
-/
import CoverageRun.Coverage.Report
import CoverageRun.Proofs.Store.OrderedMap
import Mathlib.Algebra.BigOperators.Group.List.Basic
import Mathlib.Algebra.Group.Pi.Lemmas
import Mathlib.Algebra.GroupWithZero.Nat

namespace CoverageRun.Coverage

open Store

/-! ## Tallies -/

/-- What the entries of one key come to: nothing if there are none, no count if none of them brings
one, else the sum of their counts. -/
def Tally := Option (Option Nat)

namespace Tally

instance : DecidableEq Tally := inferInstanceAs (DecidableEq (Option (Option Nat)))

instance : Zero Tally := ⟨none⟩

instance : Add Tally := ⟨Option.merge (Option.merge (· + ·))⟩

instance : AddCommMonoid Tally where
  zero_add _ := Option.merge_none_left
  add_zero _ := Option.merge_none_right
  add_assoc a b c := by
    rcases a with _ | _ | a <;> rcases b with _ | _ | b <;> rcases c with _ | _ | c <;> try rfl
    exact congrArg (fun n => some (some n)) (Nat.add_assoc a b c)
  add_comm a b := by
    rcases a with _ | _ | a <;> rcases b with _ | _ | b <;> try rfl
    exact congrArg (fun n => some (some n)) (Nat.add_comm a b)
  nsmul := nsmulRec

/-- The sum of the counts. -/
def hits : Tally → Nat
  | some (some n) => n
  | _ => 0

/-- The tally of a count that is kept at a key. -/
def ofCount (c : Option (Option UInt64)) : Tally := c.map (·.map UInt64.toNat)

/-- The tally of one entry. -/
def entry (c : Option UInt64) : Tally := ofCount (some c)

@[simp]
theorem hits_zero : (0 : Tally).hits = 0 := rfl

@[simp]
theorem hits_add (a b : Tally) : (a + b).hits = a.hits + b.hits := by
  rcases a with _ | _ | a <;> rcases b with _ | _ | b <;>
    first | rfl | exact (Nat.zero_add _).symm

@[simp]
theorem hits_entry (c : Option UInt64) : (entry c).hits = (c.getD 0).toNat := by
  cases c <;> rfl

theorem hits_ofCount_lt (c : Option (Option UInt64)) : (ofCount c).hits < UInt64.size := by
  rcases c with _ | _ | n
  · decide
  · decide
  · exact n.toNat_lt_size

end Tally

/-! ## Two counts -/

theorem addHits?_eq_some {a b n : UInt64} (h : addHits? a b = some n) :
    n.toNat = a.toNat + b.toNat := by
  unfold addHits? at h
  split at h
  · rename_i hlt
    cases h
    rw [UInt64.toNat_add]
    exact Nat.mod_eq_of_lt hlt
  · cases h

theorem addHits?_eq_none {a b : UInt64} (h : addHits? a b = none) :
    UInt64.size ≤ a.toNat + b.toNat := by
  unfold addHits? at h
  split at h
  · cases h
  · omega

/-- Adding hits to a count that is kept, or to none, adds tallies. -/
theorem entry_addHits? {c : Option UInt64} {hits n : UInt64}
    (h : addHits? (c.getD 0) hits = some n) :
    Tally.entry (some n) = .ofCount (c.map some) + .entry (some hits) := by
  have hn := addHits?_eq_some h
  cases c with
  | none => exact congrArg (fun n => some (some n)) (hn.trans (Nat.zero_add _))
  | some a => exact congrArg (fun n => some (some n)) hn

theorem overflow_addHits? {c : Option UInt64} {hits : UInt64}
    (h : addHits? (c.getD 0) hits = none) :
    UInt64.size ≤ (Tally.ofCount (c.map some) + .entry (some hits)).hits := by
  have hn := addHits?_eq_none h
  rw [Tally.hits_add, Tally.hits_entry]
  cases c <;> exact hn

/-- Meeting a branch, with a count or without, adds tallies. -/
theorem entry_addTaken? {c : Option (Option UInt64)} {taken n : Option UInt64}
    (h : addTaken? (c.getD none) taken = some n) :
    Tally.entry n = .ofCount c + .entry taken := by
  rcases c with _ | _ | a
  · cases h; rfl
  · cases h; cases taken <;> rfl
  · cases taken with
    | none => cases h; rfl
    | some b =>
      obtain ⟨m, hm, rfl⟩ := Option.map_eq_some_iff.1 h
      exact entry_addHits? (c := some a) hm

theorem overflow_addTaken? {c : Option (Option UInt64)} {taken : Option UInt64}
    (h : addTaken? (c.getD none) taken = none) :
    UInt64.size ≤ (Tally.ofCount c + .entry taken).hits := by
  rcases c with _ | _ | a
  · cases h
  · cases h
  · cases taken with
    | none => cases h
    | some b => exact overflow_addHits? (c := some a) (Option.map_eq_none_iff.1 h)

/-! ## Sums -/

/-- A result that counts all that was counted before and all that is added; there is none if a sum
has no place in 64 bits. -/
def Sums {α κ : Type} (tally : α → κ → Tally) (before added : κ → Tally) : Option α → Prop
  | some a => tally a = before + added
  | none => ∃ k, UInt64.size ≤ (before k + added k).hits

namespace Sums

variable {α ε κ : Type} {tally : α → κ → Tally}

theorem more {before added other : κ → Tally} (h : Sums tally before added none) :
    Sums tally before (added + other) none := by
  obtain ⟨k, hk⟩ := h
  refine ⟨k, ?_⟩
  simp only [Pi.add_apply, Tally.hits_add] at hk ⊢
  omega

/-- One sum after another. -/
theorem bind {o : Option α} {f : α → Option α} {before added other : κ → Tally}
    (h : Sums tally before added o) (hf : ∀ a, o = some a → Sums tally (tally a) other (f a)) :
    Sums tally before (added + other) (o.bind f) := by
  cases o with
  | none => exact h.more
  | some a =>
    have ha : tally a = before + added := h
    have hfa := hf a rfl
    -- what `f` starts from is what was there before and what has been added to it
    simp only [Option.bind_some]
    rw [ha] at hfa
    cases hb : f a with
    | some b =>
      rw [hb] at hfa
      exact hfa.trans (add_assoc _ _ _)
    | none =>
      rw [hb] at hfa
      obtain ⟨k, hk⟩ := hfa
      exact ⟨k, by rwa [Pi.add_apply, add_assoc] at hk⟩

/-- Adding one entry after another adds all of them. -/
theorem foldlM {f : α → ε → Option α} {added : ε → κ → Tally}
    (hf : ∀ a e, Sums tally (tally a) (added e) (f a e)) :
    ∀ (es : List ε) (a : α), Sums tally (tally a) (es.map added).sum (es.foldlM f a)
  | [], a => (add_zero (tally a)).symm
  | e :: es, a => by
    rw [List.map_cons, List.sum_cons, List.foldlM_cons]
    exact (hf a e).bind fun b _ => foldlM hf es b

/-- What was added may be counted as having been there before. -/
theorem settle {o : Option α} {before added : κ → Tally} (h : Sums tally before added o) :
    Sums tally (before + added) 0 o := by
  cases o with
  | none => obtain ⟨k, hk⟩ := h; exact ⟨k, by rwa [Pi.zero_apply, add_zero]⟩
  | some a => exact (show tally a = before + added from h).trans (add_zero _).symm

/-- What the result is made into keeps its tally. -/
theorem map {β : Type} {o : Option α} {f : α → β} {tally' : β → κ → Tally} {before added : κ → Tally}
    (h : Sums tally before added o) (hf : ∀ a, tally' (f a) = tally a) :
    Sums tally' before added (o.map f) := by
  cases o with
  | none => exact h
  | some a => exact (hf a).trans h

end Sums

/-! ## Records -/

/-- What is counted in a source file. -/
inductive Key where
  | line (number : UInt32)
  | branch (id : BranchId)
  | function (name : String)
  deriving DecidableEq, Repr

namespace FileRecord

/-- The count kept at a key; a branch may be kept without one. -/
def count? (r : FileRecord) : Key → Option (Option UInt64)
  | .line number => (r.lines.get? number).map some
  | .branch id => r.branches.get? id
  | .function name => (r.functions.get? name).map fun f => some f.hits

/-- What a record counts. -/
def tally (r : FileRecord) (k : Key) : Tally := .ofCount (r.count? k)

/-- An entry at one key. -/
def single (k : Key) (c : Option UInt64) : Key → Tally := Pi.single k (.entry c)

theorem tally_empty : FileRecord.empty.tally = 0 := by
  funext k
  cases k <;> rfl

/-- A record that differs in the count at one key counts more there and nowhere else. -/
theorem tally_eq {r r' : FileRecord} {k : Key} {c : Option UInt64}
    (hk : r'.tally k = r.tally k + .entry c) (hother : ∀ k', k' ≠ k → r'.count? k' = r.count? k') :
    r'.tally = r.tally + single k c := by
  funext k'
  by_cases h : k' = k
  · subst h
    rw [Pi.add_apply, single, Pi.single_eq_same, hk]
  · rw [Pi.add_apply, single, Pi.single_eq_of_ne h, add_zero, tally, hother k' h]
    rfl

theorem overflow_at {r : FileRecord} {k : Key} {c : Option UInt64}
    (h : UInt64.size ≤ (r.tally k + .entry c).hits) : Sums tally r.tally (single k c) none :=
  ⟨k, by rwa [single, Pi.single_eq_same]⟩

theorem sums_addLine? (r : FileRecord) (line : UInt32) (hits : UInt64) :
    Sums tally r.tally (single (.line line) (some hits)) (r.addLine? line hits) := by
  unfold addLine?
  cases h : addHits? ((r.lines.get? line).getD 0) hits with
  | none => exact overflow_at (overflow_addHits? h)
  | some n =>
    apply tally_eq
    · simp only [tally, count?, OrderedMap.get?_insert_self]
      exact entry_addHits? h
    · intro k' hk'
      cases k' with
      | line l =>
        exact congrArg (Option.map some) (OrderedMap.get?_insert_of_ne _ _ fun e => hk' (congrArg _ e))
      | _ => rfl

theorem sums_addBranch? (r : FileRecord) (id : BranchId) (taken : Option UInt64) :
    Sums tally r.tally (single (.branch id) taken) (r.addBranch? id taken) := by
  unfold addBranch?
  cases h : addTaken? ((r.branches.get? id).getD none) taken with
  | none => exact overflow_at (overflow_addTaken? h)
  | some n =>
    apply tally_eq
    · simp only [tally, count?, OrderedMap.get?_insert_self]
      exact entry_addTaken? h
    · intro k' hk'
      cases k' with
      | branch i => exact OrderedMap.get?_insert_of_ne _ _ fun e => hk' (congrArg _ e)
      | _ => rfl

/-- Saying where a function stands makes it occur, with no hits of its own. -/
theorem tally_placeFunction (r : FileRecord) (name : String) (line : UInt32) :
    (r.placeFunction name line).tally = r.tally + single (.function name) (some 0) := by
  apply tally_eq
  · simp only [tally, count?, placeFunction, OrderedMap.upsert, OrderedMap.get?_insert_self]
    cases r.functions.get? name <;> rfl
  · intro k' hk'
    cases k' with
    | function f =>
      exact congrArg (Option.map _) (OrderedMap.get?_insert_of_ne _ _ fun e => hk' (congrArg _ e))
    | _ => rfl

theorem sums_addCalls? (r : FileRecord) (name : String) (line : UInt32) (hits : UInt64) :
    Sums tally r.tally (single (.function name) (some hits)) (r.addCalls? name line hits) := by
  have hkept : (((r.functions.get? name).getD ⟨line, 0⟩).hits) =
      ((r.functions.get? name).map FunctionRecord.hits).getD 0 := by
    cases r.functions.get? name <;> rfl
  have hcount : r.count? (.function name) =
      ((r.functions.get? name).map FunctionRecord.hits).map some := by
    rw [Option.map_map]; rfl
  -- a function is kept with its hits, so `functions` is looked at through `hits`
  unfold addCalls?
  simp only [hkept]
  cases h : addHits? (((r.functions.get? name).map FunctionRecord.hits).getD 0) hits with
  | none =>
    apply overflow_at
    rw [tally, hcount]
    exact overflow_addHits? h
  | some n =>
    apply tally_eq
    · rw [tally, tally, hcount]
      simp only [count?, OrderedMap.get?_insert_self]
      exact entry_addHits? h
    · intro k' hk'
      cases k' with
      | function f =>
        exact congrArg (Option.map _) (OrderedMap.get?_insert_of_ne _ _ fun e => hk' (congrArg _ e))
      | _ => rfl

/-! ## Records put together -/

theorem sum_single_eq_zero {ε : Type} {key : ε → Key} {c : ε → Option UInt64} {k : Key} :
    ∀ {es : List ε}, (∀ e ∈ es, key e ≠ k) → (es.map fun e => single (key e) (c e)).sum k = 0
  | [], _ => rfl
  | e :: es, h => by
    have hk : k ≠ key e := fun hk => h e List.mem_cons_self hk.symm
    rw [List.map_cons, List.sum_cons, Pi.add_apply, single, Pi.single_eq_of_ne hk, zero_add]
    exact sum_single_eq_zero fun e he => h e (List.mem_cons_of_mem _ he)

/-- The entries of a map, no key twice, add up at a key to what is kept there. -/
theorem sum_single_find? {κ ν : Type} [Ord κ] [Std.LawfulEqOrd κ] {key : κ → Key}
    (hkey : Function.Injective key) (c : ν → Option UInt64) (k : κ) :
    ∀ {es : List (κ × ν)}, es.Pairwise (fun a b => compare a.1 b.1 ≠ .eq) →
      (es.map fun e => single (key e.1) (c e.2)).sum (key k) =
        .ofCount (((es.find? fun e => compare k e.1 == .eq).map Prod.snd).map c)
  | [], _ => rfl
  | (k', v) :: es, hd => by
    obtain ⟨hhead, hd⟩ := List.pairwise_cons.1 hd
    rw [List.map_cons, List.sum_cons, Pi.add_apply, List.find?_cons]
    by_cases h : compare k k' = .eq
    · have hk : k = k' := Std.LawfulEqOrd.eq_of_compare h
      subst hk
      -- no key stands twice, so the entries behind this one add nothing at its key
      have hrest : (es.map fun e => single (key e.1) (c e.2)).sum (key k) = 0 :=
        sum_single_eq_zero fun e he heq => hhead e he (by
          rw [hkey heq]; exact Std.ReflCmp.compare_self)
      rw [hrest, add_zero, single, Pi.single_eq_same]
      simp [Tally.entry]
    · have hne : key k ≠ key k' := fun heq => h (by
        rw [hkey heq]; exact Std.ReflCmp.compare_self)
      rw [single, Pi.single_eq_of_ne hne, zero_add, sum_single_find? hkey c k hd,
        beq_eq_false_iff_ne.2 h]

theorem sum_single_entries {κ ν : Type} [Ord κ] [Std.LawfulEqOrd κ] (m : OrderedMap κ ν)
    {key : κ → Key} (hkey : Function.Injective key) (c : ν → Option UInt64) (k : κ) :
    (m.entries.map fun e => single (key e.1) (c e.2)).sum (key k) =
      .ofCount ((m.get? k).map c) :=
  sum_single_find? hkey c k m.distinct

/-- What two records come to is what each of them counts. -/
theorem sums_merge? (r s : FileRecord) : Sums tally r.tally s.tally (r.merge? s) := by
  have hlines := Sums.foldlM (fun r (e : UInt32 × UInt64) => sums_addLine? r e.1 e.2) s.lines.entries
  have hbranches := Sums.foldlM (fun r (e : BranchId × Option UInt64) => sums_addBranch? r e.1 e.2)
    s.branches.entries
  have hfunctions := Sums.foldlM
    (fun r (e : String × FunctionRecord) => sums_addCalls? r e.1 e.2.line e.2.hits) s.functions.entries
  -- the three kinds of keys do not meet
  have hadded : s.tally =
      (s.lines.entries.map fun e => single (.line e.1) (some e.2)).sum +
        ((s.branches.entries.map fun e => single (.branch e.1) e.2).sum +
          (s.functions.entries.map fun e => single (.function e.1) (some e.2.hits)).sum) := by
    funext k
    simp only [Pi.add_apply]
    cases k with
    | line n =>
      rw [sum_single_entries s.lines (fun _ _ => Key.line.inj) some n]
      simp [sum_single_eq_zero, tally, count?]
    | branch id =>
      rw [sum_single_entries s.branches (fun _ _ => Key.branch.inj) (fun taken => taken) id]
      simp [sum_single_eq_zero, tally, count?]
    | function name =>
      rw [sum_single_entries s.functions (fun _ _ => Key.function.inj) (fun f => some f.hits) name]
      simp [sum_single_eq_zero, tally, count?]
  rw [hadded]
  exact (hlines r).bind fun r _ => (hbranches r).bind fun r _ => hfunctions r

end FileRecord

/-! ## Reports -/

theorem compare_eq_iff {p q : Path} : compare p q = .eq ↔ p.parts = q.parts := by
  show compare p.parts q.parts = .eq ↔ _
  exact Std.LawfulEqCmp.compare_eq_iff_eq

/-- What is counted in a file, as counted in a report. -/
def spread (path : Path) (t : Key → Tally) (x : Path × Key) : Tally :=
  if x.1.parts = path.parts then t x.2 else 0

theorem spread_add (path : Path) (t u : Key → Tally) :
    spread path (t + u) = spread path t + spread path u := by
  funext x
  by_cases h : x.1.parts = path.parts <;> simp [spread, h]

theorem spread_zero (path : Path) : spread path 0 = 0 := by
  funext x
  simp [spread]

namespace Report

/-- The count kept at a key of a file. -/
def count? (r : Report) (path : Path) (k : Key) : Option (Option UInt64) :=
  (r.file? path).bind fun f => f.count? k

/-- What a report counts. -/
def tally (r : Report) (x : Path × Key) : Tally := .ofCount (r.count? x.1 x.2)

theorem tally_of_file? {r : Report} {path : Path} {f : FileRecord} (h : r.file? path = some f)
    (k : Key) : r.tally (path, k) = f.tally k := by
  simp [tally, count?, h, FileRecord.tally]

/-- A file that is written with more counts than it had. -/
theorem tally_insert {r : Report} {path : Path} {f : FileRecord} {added : Key → Tally}
    (h : ∀ k, f.tally k = r.tally (path, k) + added k) :
    Report.tally ⟨r.files.insert path f⟩ = r.tally + spread path added := by
  funext ⟨p, k⟩
  simp only [Pi.add_apply, spread, tally, count?, file?, OrderedMap.get?_insert, compare_eq_iff]
  by_cases hp : p.parts = path.parts
  · have hsame : r.files.get? p = r.files.get? path := r.files.get?_congr (compare_eq_iff.2 hp)
    simp only [if_pos hp, hsame, Option.bind_some]
    exact h k
  · simp [hp]

theorem sums_insert? (r : Report) (path : Path) (record : FileRecord) :
    Sums tally r.tally (spread path record.tally) (r.insert? path record) := by
  unfold insert?
  cases hf : r.files.get? path with
  | none =>
    apply tally_insert
    intro k
    have hnone : r.tally (path, k) = 0 := by simp only [tally, count?, file?, hf]; rfl
    rw [hnone, zero_add]
  | some known =>
    have hknown : ∀ k, r.tally (path, k) = known.tally k := tally_of_file? hf
    -- a sum too large in the record is too large in the report, at the key of its file
    have hmerge := known.sums_merge? record
    simp only
    cases hm : known.merge? record with
    | none =>
      rw [hm] at hmerge
      obtain ⟨k, hk⟩ := hmerge
      exact ⟨(path, k), by simpa [spread, hknown k] using hk⟩
    | some merged =>
      rw [hm] at hmerge
      apply tally_insert
      intro k
      rw [hknown k]
      exact congrFun hmerge k

/-- A record put into a report makes its file known, and no other. -/
theorem isSome_file?_insert? {r r' : Report} {path : Path} {record : FileRecord}
    (h : r.insert? path record = some r') (p : Path) :
    (r'.file? p).isSome ↔ (r.file? p).isSome ∨ path.parts = p.parts := by
  have hinsert : ∀ f, ((Report.mk (r.files.insert path f)).file? p).isSome ↔
      (r.file? p).isSome ∨ path.parts = p.parts := by
    intro f
    simp only [file?, OrderedMap.get?_insert, compare_eq_iff]
    by_cases hp : p.parts = path.parts
    · simp [hp]
    · simp [hp, Ne.symm hp]
  unfold insert? at h
  split at h
  · cases h; exact hinsert record
  · obtain ⟨m, -, rfl⟩ := Option.map_eq_some_iff.1 h
    exact hinsert m

end Report

end CoverageRun.Coverage
