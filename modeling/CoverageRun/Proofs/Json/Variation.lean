/-
Variations of a value: of every object some members are left out, members of other names are put in,
and all of them stand in any order. A record read from a variation has the fields that are there as
they were written, and the others as they are by default.
-/
import CoverageRun.Proofs.Json.Spelling
import CoverageRun.Proofs.Json.Writing

namespace CoverageRun.Json

/-! ## Passing over -/

theorem Literal.skip_node (l : Literal) : l.node.skip = .ok () := by
  unfold node numberNode
  dsimp only
  split
  · split_ifs <;> rfl
  · split_ifs <;> rfl

mutual

/-- Data are passed over without a fault. -/
theorem Datum.skip_node : ∀ d : Datum, d.node.skip = .ok ()
  | .null | .bool _ | .text _ => rfl
  | .number l => l.skip_node
  | .array items => Datum.skip_itemNodes items
  | .object members => Datum.skip_memberNodes members

theorem Datum.skip_itemNodes : ∀ items : List Datum, (Datum.itemNodes items).skip = .ok ()
  | [] => rfl
  | d :: r => by
    rw [Datum.itemNodes, Items.skip, d.skip_node]
    exact Datum.skip_itemNodes r

theorem Datum.skip_memberNodes : ∀ members : List (String × Datum),
    (Datum.memberNodes members).skip = .ok ()
  | [] => rfl
  | (k, d) :: r => by
    rw [Datum.memberNodes, Members.skip, d.skip_node]
    exact Datum.skip_memberNodes r

end

/-! ## Variations -/

mutual

/-- A variation of a value: `kept` tells by their paths which members of its objects are left. -/
inductive Varied : (List String → Bool) → Value → Datum → Prop
  | leaf {kept : List String → Bool} {v : Value} (h : ∀ members, v ≠ .object members) :
      Varied kept v v.datum
  | object {kept : List String → Bool} {members : List (String × Value)}
      {left extra all : List (String × Datum)} (hleft : VariedMembers kept members left)
      (hextra : ∀ m ∈ extra, m.1 ∉ members.map Prod.fst) (hall : all.Perm (left ++ extra)) :
      Varied kept (.object members) (.object all)

/-- The members of an object that are left, each of them varied. -/
inductive VariedMembers : (List String → Bool) → List (String × Value) → List (String × Datum) → Prop
  | nil {kept : List String → Bool} : VariedMembers kept [] []
  | keep {kept : List String → Bool} {k : String} {v : Value} {d : Datum}
      {members : List (String × Value)} {left : List (String × Datum)} (hk : kept [k] = true)
      (hv : Varied (fun path => kept (k :: path)) v d) (h : VariedMembers kept members left) :
      VariedMembers kept ((k, v) :: members) ((k, d) :: left)
  | drop {kept : List String → Bool} {k : String} {v : Value} {members : List (String × Value)}
      {left : List (String × Datum)} (hk : kept [k] = false) (h : VariedMembers kept members left) :
      VariedMembers kept ((k, v) :: members) left

end

mutual

/-- A value varies itself. -/
theorem Varied.refl : ∀ v : Value, Varied (fun _ => true) v v.datum
  | .null | .bool _ | .integer _ | .text _ | .array _ => .leaf nofun
  | .object members => .object (VariedMembers.refl members) (List.forall_mem_nil _) (by simp)

theorem VariedMembers.refl : ∀ members : List (String × Value),
    VariedMembers (fun _ => true) members (Value.memberData members)
  | [] => .nil
  | (_, v) :: r => .keep rfl (Varied.refl v) (VariedMembers.refl r)

end

variable {kept : List String → Bool}

theorem Varied.eq_datum {v : Value} {d : Datum} (h : Varied kept v d)
    (hv : ∀ members, v ≠ .object members) : d = v.datum := by
  cases h with
  | leaf => rfl
  | object => exact absurd rfl (hv _)

namespace VariedMembers

variable {members : List (String × Value)} {left : List (String × Datum)}

theorem names (h : VariedMembers kept members left) :
    left.map Prod.fst = (members.map Prod.fst).filter fun k => kept [k] := by
  induction members generalizing left with
  | nil => cases h; rfl
  | cons m r ih =>
    cases h with
    | keep hk _ h => simp [hk, ih h]
    | drop hk h => simp [hk, ih h]

/-- What is left varies what was written. -/
theorem exists_written (h : VariedMembers kept members left) {m : String × Datum} (hm : m ∈ left) :
    ∃ v, (m.1, v) ∈ members ∧ Varied (fun path => kept (m.1 :: path)) v m.2 := by
  induction members generalizing left with
  | nil => cases h; cases hm
  | cons head r ih =>
    cases h with
    | keep _ hv h =>
      rcases List.mem_cons.1 hm with rfl | hm
      · exact ⟨_, List.mem_cons_self, hv⟩
      · obtain ⟨v, hmem, hvaried⟩ := ih h hm
        exact ⟨v, List.mem_cons_of_mem _ hmem, hvaried⟩
    | drop _ h =>
      obtain ⟨v, hmem, hvaried⟩ := ih h hm
      exact ⟨v, List.mem_cons_of_mem _ hmem, hvaried⟩

end VariedMembers

/-! ## Records -/

section Records

variable {R : Type} {fields : List (Field R)} {blend : (String → Bool) → R}

/-- The names of fields. -/
def fieldNames (fields : List (Field R)) : List String := fields.map (·.name)

/-- A member sets the field of its name. `blend` gives the record in which certain fields are set. -/
def Sets (fields : List (Field R)) (blend : (String → Bool) → R) (m : String × Datum) : Prop :=
  ∀ f ∈ fields, f.name = m.1 → ∀ filled,
    f.put (blend filled) m.2.node = .ok (blend fun n => n == m.1 || filled n)

/-- Members are read one by one: those that name a field set it, and the others are passed over. Only
names of fields are remembered, so other names may come twice. -/
theorem readRecord_memberNodes (hfallback : ∀ f ∈ fields, f.absence = .fallback) :
    ∀ {members : List (String × Datum)} {seen : List String} {filled : String → Bool},
      (∀ m ∈ members, Sets fields blend m) →
      members.Pairwise (fun a b => a.1 ∈ fieldNames fields → a.1 ≠ b.1) →
      (∀ m ∈ members, m.1 ∉ seen) →
      (Datum.memberNodes members).readRecord fields seen (blend filled) =
        .ok (blend fun n =>
          decide (n ∈ fieldNames fields ∧ n ∈ members.map Prod.fst) || filled n)
  | [], seen, filled, _, _, _ => by
    have hall : (fields.all fun f => f.absence != .fault || seen.contains f.name) = true :=
      List.all_eq_true.2 fun f hf => by rw [hfallback f hf]; rfl
    rw [Datum.memberNodes, Members.readRecord, if_pos hall]
    simp
  | (k, d) :: r, seen, filled, hsets, hdistinct, hseen => by
    obtain ⟨hk, hdistinct⟩ := List.pairwise_cons.1 hdistinct
    rw [Datum.memberNodes, Members.readRecord]
    cases hf : fields.find? fun f => f.name == k with
    | none =>
      have hunknown : k ∉ fieldNames fields := by
        simpa [fieldNames] using hf
      simp only [d.skip_node]
      refine (readRecord_memberNodes hfallback (fun m hm => hsets m (List.mem_cons_of_mem _ hm))
        hdistinct fun m hm => hseen m (List.mem_cons_of_mem _ hm)).trans ?_
      congr 2
      funext n
      rw [Bool.eq_iff_iff]
      by_cases hn : n = k <;> simp [hn, hunknown]
    | some f =>
      have hmem : f ∈ fields := List.mem_of_find?_eq_some hf
      have hname : f.name = k := by simpa using List.find?_some hf
      have hknown : k ∈ fieldNames fields := hname ▸ List.mem_map_of_mem hmem
      have hput := hsets _ List.mem_cons_self f hmem hname filled
      simp only [hput]
      rw [if_neg (by simpa using hseen _ List.mem_cons_self)]
      refine (readRecord_memberNodes hfallback (fun m hm => hsets m (List.mem_cons_of_mem _ hm))
        hdistinct fun m hm => ?_).trans ?_
      · rw [List.mem_cons, not_or]
        exact ⟨(hk m hm hknown).symm, hseen m (List.mem_cons_of_mem _ hm)⟩
      · congr 2
        funext n
        rw [Bool.eq_iff_iff]
        by_cases hn : n = k <;> simp [hn, hknown]

/-- A field is put in from every variation of what was written in it. -/
def Field.Restores (f : Field R) (blend : (String → Bool) → R) (kept : List String → Bool)
    (m : String × Value) : Prop :=
  f.name = m.1 ∧ ∀ d, Varied (fun path => kept (m.1 :: path)) m.2 d → ∀ filled,
    f.put (blend filled) d.node = .ok (blend fun n => n == m.1 || filled n)

theorem fieldNames_of_restores {members : List (String × Value)}
    (h : List.Forall₂ (fun f m => Field.Restores f blend kept m) fields members) :
    fieldNames fields = members.map Prod.fst := by
  induction h with
  | nil => rfl
  | cons hf _ ih => simpa [fieldNames, hf.1] using ih

theorem exists_restored {members : List (String × Value)}
    (h : List.Forall₂ (fun f m => Field.Restores f blend kept m) fields members) {f : Field R}
    (hf : f ∈ fields) : ∃ m ∈ members, f.Restores blend kept m := by
  induction h with
  | nil => cases hf
  | cons hrestores _ ih =>
    rcases List.mem_cons.1 hf with rfl | hf
    · exact ⟨_, List.mem_cons_self, hrestores⟩
    · obtain ⟨m, hm, hrestores⟩ := ih hf
      exact ⟨m, List.mem_cons_of_mem _ hm, hrestores⟩

variable (blend) in
/-- A record is read from every variation of what was written: the fields that are left are set. -/
theorem Varied.readRecord {start : R} {members : List (String × Value)} {d : Datum}
    (h : Varied kept (.object members) d)
    (hstart : ∀ filled, (∀ n ∈ members.map Prod.fst, filled n = false) → blend filled = start)
    (hfields : List.Forall₂ (fun f m => Field.Restores f blend kept m) fields members)
    (hdistinct : (members.map Prod.fst).Nodup) (hfallback : ∀ f ∈ fields, f.absence = .fallback) :
    d.node.readRecord fields start = .ok (blend fun n => kept [n]) := by
  have hnames := fieldNames_of_restores hfields
  cases h with
  | leaf h => exact absurd rfl (h members)
  | @object _ _ left extra all hleft hextra hall =>
    -- names of no field stay as `kept` has them, so that in the end the two agree everywhere
    rw [Datum.node, Node.readRecord,
      ← hstart (fun n => kept [n] && decide (n ∉ fieldNames fields)) fun n hn => by simp [hnames, hn],
      readRecord_memberNodes hfallback]
    · congr 2
      funext n
      have hmem : n ∈ fieldNames fields → (n ∈ all.map Prod.fst ↔ kept [n] = true) := by
        intro hn
        rw [hnames] at hn
        have hnone : n ∉ extra.map Prod.fst := fun hmem => by
          obtain ⟨m, hm, rfl⟩ := List.mem_map.1 hmem
          exact hextra m hm hn
        rw [(hall.map Prod.fst).mem_iff, List.map_append, List.mem_append, hleft.names,
          List.mem_filter]
        simp [hn, hnone]
      rw [Bool.eq_iff_iff]
      by_cases hn : n ∈ fieldNames fields
      · simpa [hn] using hmem hn
      · simp [hn]
    · intro m hm f hf hname filled
      obtain ⟨w, hw, hwname, hrestores⟩ := exists_restored hfields hf
      rcases List.mem_append.1 (hall.mem_iff.1 hm) with hm | hm
      · obtain ⟨v, hv, hvaried⟩ := hleft.exists_written hm
        have heq : w = (m.1, v) := List.inj_on_of_nodup_map hdistinct hw hv (hwname.symm.trans hname)
        subst heq
        exact hrestores _ hvaried filled
      · exact absurd (List.mem_map_of_mem hw) (hwname ▸ hname ▸ hextra m hm)
    · have hsymm : ∀ {a b : String × Datum}, (a.1 ∈ fieldNames fields → a.1 ≠ b.1) →
          b.1 ∈ fieldNames fields → b.1 ≠ a.1 :=
        fun h hb heq => h (heq ▸ hb) heq.symm
      refine (hall.pairwise_iff hsymm).2 (List.pairwise_append.2 ⟨?_, ?_, ?_⟩)
      · have hnodup : (left.map Prod.fst).Nodup := hleft.names ▸ hdistinct.filter _
        refine (List.pairwise_map.1 hnodup).imp ?_
        intro _ _ hne _
        exact hne
      · exact List.pairwise_of_forall_mem_list fun a ha _ _ hknown =>
          absurd (hnames ▸ hknown) (hextra a ha)
      · intro a _ b hb hknown heq
        exact hextra b hb (hnames ▸ heq ▸ hknown)
    · simp

end Records

end CoverageRun.Json
