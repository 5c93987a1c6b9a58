/-
Finite maps with ordered keys. A map is the list of its entries in strictly ascending key order, so
two maps with the same entries are equal and every listing comes out in key order. Writing to a key
that is present keeps the key as it was first written: keys that compare equal may differ in
spelling.
-/

namespace CoverageRun.Store

/-- A map from keys to values; the entries stand in strictly ascending key order. -/
structure OrderedMap (κ ν : Type) [Ord κ] where
  entries : List (κ × ν)
  ascending : entries.Pairwise fun a b => compare a.1 b.1 = .lt

namespace OrderedMap

variable {κ ν : Type} [Ord κ]

instance [DecidableEq κ] [DecidableEq ν] : DecidableEq (OrderedMap κ ν) := fun a b =>
  if h : a.entries = b.entries then
    isTrue (by cases a; cases b; cases h; rfl)
  else isFalse fun e => h (congrArg entries e)

instance [Repr κ] [Repr ν] : Repr (OrderedMap κ ν) := ⟨fun m n => reprPrec m.entries n⟩

/-! ## Reading -/

/-- The map without entries. -/
def empty : OrderedMap κ ν := ⟨[], .nil⟩

instance : Inhabited (OrderedMap κ ν) := ⟨empty⟩

/-- The keys, ascending. -/
def keys (m : OrderedMap κ ν) : List κ := m.entries.map Prod.fst

/-- The number of entries. -/
def size (m : OrderedMap κ ν) : Nat := m.entries.length

/-- The value at a key. -/
def get? (m : OrderedMap κ ν) (k : κ) : Option ν :=
  (m.entries.find? fun e => compare k e.1 == .eq).map Prod.snd

/-! ## Writing -/

/-- Entries with the value at a key replaced, or with a new entry in its place in the order. -/
def place (k : κ) (v : ν) : List (κ × ν) → List (κ × ν)
  | [] => [(k, v)]
  | (k', v') :: r =>
    match compare k k' with
    | .lt => (k, v) :: (k', v') :: r
    | .eq => (k', v) :: r
    | .gt => (k', v') :: place k v r

theorem mem_place {k : κ} {v : ν} {e : κ × ν} {es : List (κ × ν)} (h : e ∈ place k v es) :
    e = (k, v) ∨ ∃ v', (e.1, v') ∈ es := by
  induction es with
  | nil => simp [place] at h; exact .inl h
  | cons head r ih =>
    obtain ⟨k', v'⟩ := head
    simp only [place] at h
    split at h
    · rcases List.mem_cons.1 h with h | h
      · exact .inl h
      · exact .inr ⟨e.2, h⟩
    · rcases List.mem_cons.1 h with h | h
      · exact .inr ⟨v', by simp [h]⟩
      · exact .inr ⟨e.2, List.mem_cons_of_mem _ h⟩
    · rcases List.mem_cons.1 h with h | h
      · exact .inr ⟨v', by simp [h]⟩
      · rcases ih h with h | ⟨w, h⟩
        · exact .inl h
        · exact .inr ⟨w, List.mem_cons_of_mem _ h⟩

theorem place_ascending [Std.TransOrd κ] (k : κ) (v : ν) (es : List (κ × ν))
    (h : es.Pairwise fun a b => compare a.1 b.1 = .lt) :
    (place k v es).Pairwise fun a b => compare a.1 b.1 = .lt := by
  induction es with
  | nil => simp [place]
  | cons head r ih =>
    obtain ⟨k', v'⟩ := head
    obtain ⟨hhead, hr⟩ := List.pairwise_cons.1 h
    simp only [place]
    split
    · rename_i hlt
      refine List.pairwise_cons.2 ⟨fun e he => ?_, h⟩
      rcases List.mem_cons.1 he with rfl | he
      · exact hlt
      · exact Std.TransCmp.lt_trans hlt (hhead e he)
    · exact List.pairwise_cons.2 ⟨hhead, hr⟩
    · rename_i hgt
      refine List.pairwise_cons.2 ⟨fun e he => ?_, ih hr⟩
      rcases mem_place he with rfl | ⟨w, he⟩
      · exact Std.OrientedCmp.gt_iff_lt.1 hgt
      · exact hhead (e.1, w) he

/-- The map with `v` at `k`. A key that is present keeps its spelling. -/
def insert [Std.TransOrd κ] (m : OrderedMap κ ν) (k : κ) (v : ν) : OrderedMap κ ν :=
  ⟨place k v m.entries, place_ascending k v m.entries m.ascending⟩

/-- The map with what `f` makes of the value at `k`, or of its absence, at `k`. -/
def upsert [Std.TransOrd κ] (m : OrderedMap κ ν) (k : κ) (f : Option ν → ν) : OrderedMap κ ν :=
  m.insert k (f (m.get? k))

/-- The entries that satisfy a test. -/
def filter (m : OrderedMap κ ν) (keep : κ → ν → Bool) : OrderedMap κ ν :=
  ⟨m.entries.filter fun e => keep e.1 e.2, m.ascending.filter _⟩

/-- The map with the entries written one after another. -/
def ofList [Std.TransOrd κ] (es : List (κ × ν)) : OrderedMap κ ν :=
  es.foldl (fun m e => m.insert e.1 e.2) empty

end OrderedMap

end CoverageRun.Store
