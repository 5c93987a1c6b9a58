/-
Laws of ordered maps: what is read after a write, when an entry is found, and two ways to know a map
by its entries — maps with lawful keys are equal when they read alike everywhere, and a write behind
the last key puts its entry at the end.
-/
import CoverageRun.Store.OrderedMap
import Mathlib.Data.List.Basic

namespace CoverageRun.Store.OrderedMap

variable {κ ν : Type} [Ord κ]

theorem eq_of_entries {m n : OrderedMap κ ν} (h : m.entries = n.entries) : m = n := by
  cases m; cases n; cases h; rfl

@[simp]
theorem get?_empty (k : κ) : (empty : OrderedMap κ ν).get? k = none := rfl

@[simp]
theorem entries_empty : (empty : OrderedMap κ ν).entries = [] := rfl

/-! ## Finding entries -/

theorem exists_of_get? {m : OrderedMap κ ν} {k : κ} {v : ν} (h : m.get? k = some v) :
    ∃ k', (k', v) ∈ m.entries ∧ compare k k' = .eq := by
  unfold get? at h
  obtain ⟨⟨k', v'⟩, he, rfl⟩ := Option.map_eq_some_iff.1 h
  exact ⟨k', List.mem_of_find?_eq_some he, by simpa using List.find?_some he⟩

theorem get?_eq_none_iff {m : OrderedMap κ ν} {k : κ} :
    m.get? k = none ↔ ∀ e ∈ m.entries, compare k e.1 ≠ .eq := by
  unfold get?
  rw [Option.map_eq_none_iff, List.find?_eq_none]
  simp

theorem get?_eq_none_of_notMem [Std.LawfulEqOrd κ] {m : OrderedMap κ ν} {k : κ} (h : k ∉ m.keys) :
    m.get? k = none := by
  refine get?_eq_none_iff.2 fun e he heq => h ?_
  rw [Std.LawfulEqOrd.eq_of_compare heq]
  exact List.mem_map_of_mem he

/-- No key stands twice. -/
theorem distinct (m : OrderedMap κ ν) : m.entries.Pairwise fun a b => compare a.1 b.1 ≠ .eq :=
  m.ascending.imp fun h => by rw [h]; decide

variable [Std.TransOrd κ]

/-- Entries with equal keys are the same entry. -/
theorem entry_unique (m : OrderedMap κ ν) {a b : κ × ν} (ha : a ∈ m.entries) (hb : b ∈ m.entries)
    (h : compare a.1 b.1 = .eq) : a = b := by
  let R : κ × ν → κ × ν → Prop := fun x y => compare x.1 y.1 = .eq → x = y
  have hR : ∀ x ∈ m.entries, R x x := fun x _ _ => rfl
  have h1 : m.entries.Pairwise R := m.ascending.imp fun hlt heq => by rw [hlt] at heq; cases heq
  have h2 : m.entries.Pairwise (flip R) := m.ascending.imp fun hlt heq => by
    rw [Std.OrientedCmp.eq_symm heq] at hlt; cases hlt
  exact List.Pairwise.forall_of_forall_of_flip hR h1 h2 ha hb h

theorem get?_of_mem {m : OrderedMap κ ν} {k k' : κ} {v : ν} (hm : (k', v) ∈ m.entries)
    (h : compare k k' = .eq) : m.get? k = some v := by
  unfold get?
  cases hf : m.entries.find? fun e => compare k e.1 == .eq with
  | none => rw [List.find?_eq_none] at hf; simpa [h] using hf _ hm
  | some e =>
    have he : compare k e.1 = .eq := by simpa using List.find?_some hf
    have hk : compare e.1 k' = .eq := Std.TransCmp.eq_trans (Std.OrientedCmp.eq_symm he) h
    rw [m.entry_unique (List.mem_of_find?_eq_some hf) hm hk]; rfl

/-- What is read at a key: the value of the entry whose key is equal. -/
theorem get?_eq_some_iff {m : OrderedMap κ ν} {k : κ} {v : ν} :
    m.get? k = some v ↔ ∃ k', (k', v) ∈ m.entries ∧ compare k k' = .eq :=
  ⟨exists_of_get?, fun ⟨_, hm, h⟩ => get?_of_mem hm h⟩

/-- Equal keys read alike. -/
theorem get?_congr (m : OrderedMap κ ν) {k k' : κ} (h : compare k k' = .eq) :
    m.get? k = m.get? k' := by
  unfold get?
  congr 2
  funext e
  rw [Std.TransCmp.congr_left h]

/-! ## Writing -/

theorem find?_place (k k' : κ) (v : ν) (es : List (κ × ν)) :
    ((place k v es).find? fun e => compare k' e.1 == .eq).map Prod.snd =
      if compare k' k = .eq then some v
      else (es.find? fun e => compare k' e.1 == .eq).map Prod.snd := by
  induction es with
  | nil => by_cases h : compare k' k = .eq <;> simp [place, h]
  | cons head r ih =>
    obtain ⟨k₁, v₁⟩ := head
    simp only [place]
    split
    · by_cases h : compare k' k = .eq <;> simp [h]
    · rename_i heq
      have hc : compare k' k₁ = compare k' k := (Std.TransCmp.congr_right heq).symm
      by_cases h : compare k' k = .eq <;> simp [hc, h]
    · rename_i hgt
      by_cases h : compare k' k₁ = .eq
      · have hne : compare k' k ≠ .eq := fun hk => by
          have := Std.TransCmp.eq_trans (Std.OrientedCmp.eq_symm hk) h
          rw [hgt] at this; cases this
        simp [h, hne]
      · simpa [List.find?_cons, h] using ih

/-- A write is read at its key, and nowhere else. -/
theorem get?_insert (m : OrderedMap κ ν) (k k' : κ) (v : ν) :
    (m.insert k v).get? k' = if compare k' k = .eq then some v else m.get? k' :=
  find?_place k k' v m.entries

theorem get?_insert_self (m : OrderedMap κ ν) (k : κ) (v : ν) : (m.insert k v).get? k = some v := by
  rw [get?_insert, if_pos Std.ReflCmp.compare_self]

theorem get?_insert_of_ne [Std.LawfulEqOrd κ] (m : OrderedMap κ ν) {k k' : κ} (v : ν)
    (h : k' ≠ k) : (m.insert k v).get? k' = m.get? k' := by
  rw [get?_insert, if_neg fun e => h (Std.LawfulEqOrd.eq_of_compare e)]

omit [Std.TransOrd κ] in
theorem mem_place_or {k : κ} {v : ν} {e : κ × ν} : ∀ {es : List (κ × ν)}, e ∈ place k v es →
    e ∈ es ∨ e.2 = v ∧ (e.1 = k ∨ ∃ v', (e.1, v') ∈ es)
  | [], h => by simp [place] at h; subst h; exact .inr ⟨rfl, .inl rfl⟩
  | (k₁, v₁) :: r, h => by
    simp only [place] at h
    split at h
    · rcases List.mem_cons.1 h with rfl | h
      · exact .inr ⟨rfl, .inl rfl⟩
      · exact .inl h
    · rcases List.mem_cons.1 h with rfl | h
      · exact .inr ⟨rfl, .inr ⟨v₁, List.mem_cons_self ..⟩⟩
      · exact .inl (List.mem_cons_of_mem _ h)
    · rcases List.mem_cons.1 h with rfl | h
      · exact .inl (List.mem_cons_self ..)
      · rcases mem_place_or h with h | ⟨h, hk | ⟨v', hk⟩⟩
        · exact .inl (List.mem_cons_of_mem _ h)
        · exact .inr ⟨h, .inl hk⟩
        · exact .inr ⟨h, .inr ⟨v', List.mem_cons_of_mem _ hk⟩⟩

/-- A write keeps the other entries and the spelling of a key that was there. -/
theorem mem_insert {m : OrderedMap κ ν} {k : κ} {v : ν} {e : κ × ν} (h : e ∈ (m.insert k v).entries) :
    e ∈ m.entries ∨ e.2 = v ∧ (e.1 = k ∨ ∃ v', (e.1, v') ∈ m.entries) :=
  mem_place_or h

theorem mem_place_iff_of_ne {k : κ} {v : ν} {e : κ × ν} (h : compare e.1 k ≠ .eq) :
    ∀ {es : List (κ × ν)}, e ∈ place k v es ↔ e ∈ es
  | [] => by
    have hne : e ≠ (k, v) := fun he => h (he ▸ Std.ReflCmp.compare_self)
    simp [place, hne]
  | (k₁, v₁) :: r => by
    have hne : e ≠ (k, v) := fun he => h (he ▸ Std.ReflCmp.compare_self)
    simp only [place]
    split
    · simp [hne]
    · rename_i heq
      have hne₁ : ∀ w, e ≠ (k₁, w) := fun w he => h (he ▸ Std.OrientedCmp.eq_symm heq)
      simp [hne₁]
    · rw [List.mem_cons, List.mem_cons, mem_place_iff_of_ne h]

/-- A write changes no entry with another key. -/
theorem mem_insert_iff_of_ne {m : OrderedMap κ ν} {k : κ} {v : ν} {e : κ × ν}
    (h : compare e.1 k ≠ .eq) : e ∈ (m.insert k v).entries ↔ e ∈ m.entries :=
  mem_place_iff_of_ne h

theorem keys_place {k k' : κ} {v : ν} (heq : compare k k' = .eq) : ∀ {es : List (κ × ν)},
    es.Pairwise (fun a b => compare a.1 b.1 = .lt) → k' ∈ es.map Prod.fst →
      (place k v es).map Prod.fst = es.map Prod.fst
  | (k₁, v₁) :: r, ha, hk' => by
    obtain ⟨hhead, hr⟩ := List.pairwise_cons.1 ha
    have hrest : k' ∈ r.map Prod.fst → compare k k₁ = .gt := by
      intro hk'
      obtain ⟨e, he, rfl⟩ := List.mem_map.1 hk'
      rw [Std.TransCmp.congr_left heq]
      exact Std.OrientedCmp.gt_of_lt (hhead e he)
    simp only [place]
    rcases List.mem_cons.1 hk' with rfl | hk'
    · rw [heq]
      rfl
    · rw [hrest hk']
      simp [keys_place heq hr hk']

/-- A write to a key that is there leaves the keys as they are spelled. -/
theorem keys_insert_of_mem {m : OrderedMap κ ν} {k k' : κ} (v : ν) (hk' : k' ∈ m.keys)
    (heq : compare k k' = .eq) : (m.insert k v).keys = m.keys :=
  keys_place heq m.ascending hk'

omit [Std.TransOrd κ] in
theorem mem_place_self {k : κ} {v : ν} : ∀ {es : List (κ × ν)},
    (∀ e ∈ es, compare k e.1 ≠ .eq) → (k, v) ∈ place k v es
  | [], _ => List.mem_cons_self
  | (k₁, v₁) :: r, h => by
    have hne : compare k k₁ ≠ .eq := h _ List.mem_cons_self
    simp only [place]
    split
    · exact List.mem_cons_self
    · contradiction
    · exact List.mem_cons_of_mem _ (mem_place_self fun e he => h e (List.mem_cons_of_mem _ he))

/-- A key that is not there is written as it is spelled. -/
theorem mem_insert_self_of_absent {m : OrderedMap κ ν} {k : κ} (v : ν)
    (h : ∀ e ∈ m.entries, compare k e.1 ≠ .eq) : (k, v) ∈ (m.insert k v).entries :=
  mem_place_self h

theorem place_last {k : κ} {v : ν} :
    ∀ {es : List (κ × ν)}, (∀ e ∈ es, compare e.1 k = .lt) → place k v es = es ++ [(k, v)]
  | [], _ => rfl
  | head :: r, h => by
    have hgt : compare k head.1 = .gt := Std.OrientedCmp.gt_of_lt (h head (List.mem_cons_self ..))
    simp only [place, hgt, List.cons_append]
    rw [place_last fun e he => h e (List.mem_cons_of_mem _ he)]

/-- A key behind all keys is written at the end. -/
theorem entries_insert_last (m : OrderedMap κ ν) (k : κ) (v : ν)
    (h : ∀ e ∈ m.entries, compare e.1 k = .lt) : (m.insert k v).entries = m.entries ++ [(k, v)] :=
  place_last h

theorem foldl_insert_last : ∀ {es : List (κ × ν)} {m : OrderedMap κ ν},
    (m.entries ++ es).Pairwise (fun a b => compare a.1 b.1 = .lt) →
      (es.foldl (fun m e => m.insert e.1 e.2) m).entries = m.entries ++ es
  | [], m, _ => by simp
  | e :: es, m, h => by
    have hinsert := m.entries_insert_last e.1 e.2 fun e' he' =>
      (List.pairwise_append.1 h).2.2 e' he' e List.mem_cons_self
    rw [List.foldl_cons, foldl_insert_last (by simpa [hinsert] using h), hinsert, List.append_assoc,
      List.singleton_append]

/-- A map is written by its entries. -/
theorem ofList_entries (m : OrderedMap κ ν) : ofList m.entries = m :=
  eq_of_entries (foldl_insert_last (by simpa using m.ascending))

/-- What is read of the entries that pass a test. -/
theorem get?_filter [Std.LawfulEqOrd κ] (m : OrderedMap κ ν) (keep : κ → ν → Bool) (k : κ) :
    (m.filter keep).get? k = (m.get? k).filter (keep k) := by
  apply Option.ext
  intro v
  rw [Option.filter_eq_some_iff, get?_eq_some_iff, get?_eq_some_iff]
  simp only [filter, List.mem_filter, Std.LawfulEqOrd.compare_eq_iff_eq]
  constructor
  · rintro ⟨_, ⟨hm, hkeep⟩, rfl⟩
    exact ⟨⟨k, hm, rfl⟩, hkeep⟩
  · rintro ⟨⟨_, hm, rfl⟩, hkeep⟩
    exact ⟨k, ⟨hm, hkeep⟩, rfl⟩

/-! ## Maps that read alike -/

/-- Maps with lawful keys that read alike everywhere are equal. -/
theorem ext_get? [Std.LawfulEqOrd κ] {m n : OrderedMap κ ν} (h : ∀ k, m.get? k = n.get? k) :
    m = n := by
  have hmem : ∀ (m n : OrderedMap κ ν), (∀ k, m.get? k = n.get? k) → ∀ e ∈ m.entries, e ∈ n.entries := by
    intro m n h e he
    have hk : n.get? e.1 = some e.2 := (h e.1).symm.trans (get?_of_mem he Std.ReflCmp.compare_self)
    obtain ⟨k', hk', heq⟩ := exists_of_get? hk
    rw [← Std.LawfulEqOrd.eq_of_compare heq] at hk'
    exact hk'
  have hnodup : ∀ m : OrderedMap κ ν, m.entries.Nodup := fun m =>
    m.ascending.imp fun {a b} hlt heq => by
      rw [heq] at hlt; simp at hlt
  apply eq_of_entries
  refine List.Perm.eq_of_pairwise ?_ m.ascending n.ascending ?_
  · intro a b _ _ hab hba
    rw [Std.OrientedCmp.gt_of_lt hba] at hab; cases hab
  · rw [List.perm_ext_iff_of_nodup (hnodup m) (hnodup n)]
    exact fun e => ⟨hmem m n h e, hmem n m (fun k => (h k).symm) e⟩

/-- A map with lawful keys is known by what is read at its keys and by nothing being read
elsewhere. -/
theorem eq_of_get?_entries [Std.LawfulEqOrd κ] {m n : OrderedMap κ ν}
    (hin : ∀ e ∈ n.entries, m.get? e.1 = some e.2)
    (hout : ∀ k, (∀ e ∈ n.entries, compare k e.1 ≠ .eq) → m.get? k = none) : m = n := by
  apply ext_get?
  intro k
  cases hk : n.get? k with
  | none => exact hout k (get?_eq_none_iff.1 hk)
  | some v =>
    obtain ⟨k', hm, heq⟩ := exists_of_get? hk
    rw [get?_congr m heq]
    exact hin _ hm

/-! ## Writing a list -/

variable {β : Type}

/-- Writes at one key after another what `g` makes of the value there and of what is brought. -/
def upsertAll? (g : Option ν → β → Option ν) (m : OrderedMap κ ν) :
    List (κ × β) → Option (OrderedMap κ ν)
  | [] => some m
  | (k, b) :: es => (g (m.get? k) b).bind fun v => (m.insert k v).upsertAll? g es

/-- Where no key is written twice, each is written from the value that was there at first. -/
theorem upsertAll?_distinct (g : Option ν → β → Option ν) :
    ∀ {es : List (κ × β)} {m : OrderedMap κ ν}, es.Pairwise (fun a b => compare a.1 b.1 ≠ .eq) →
      (∀ e ∈ es, (g (m.get? e.1) e.2).isSome) →
      ∃ n, m.upsertAll? g es = some n ∧ (∀ e ∈ es, n.get? e.1 = g (m.get? e.1) e.2) ∧
        ∀ k, (∀ e ∈ es, compare k e.1 ≠ .eq) → n.get? k = m.get? k
  | [], m, _, _ => ⟨m, rfl, by simp, fun _ _ => rfl⟩
  | (k, b) :: es, m, hd, hok => by
    obtain ⟨hk, hd⟩ := List.pairwise_cons.1 hd
    obtain ⟨v, hv⟩ := Option.isSome_iff_exists.1 (hok _ List.mem_cons_self)
    have hother : ∀ e ∈ es, (m.insert k v).get? e.1 = m.get? e.1 := fun e he => by
      rw [get?_insert, if_neg fun h => hk e he (Std.OrientedCmp.eq_symm h)]
    obtain ⟨n, hn, hin, hout⟩ := upsertAll?_distinct g hd (m := m.insert k v) fun e he => by
      rw [hother e he]; exact hok e (List.mem_cons_of_mem _ he)
    refine ⟨n, by simp [upsertAll?, hv, hn], fun e he => ?_, fun k' hk' => ?_⟩
    · rcases List.mem_cons.1 he with rfl | he
      · rw [hout k hk, get?_insert, if_pos Std.ReflCmp.compare_self, hv]
      · rw [hin e he, hother e he]
    · rw [hout k' fun e he => hk' e (List.mem_cons_of_mem _ he), get?_insert,
        if_neg (hk' _ List.mem_cons_self)]

end CoverageRun.Store.OrderedMap
