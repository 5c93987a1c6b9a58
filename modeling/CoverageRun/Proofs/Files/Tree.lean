/-
What stands where after an entry is put or erased: there it is as said, everywhere else as it was.
-/
import CoverageRun.Files.Tree
import CoverageRun.Proofs.Store.OrderedMap

namespace CoverageRun.Files.Tree

open Store

@[simp]
theorem home_put (t : Tree) (loc : Location) (e : Entry) : (t.put loc e).home = t.home := rfl

@[simp]
theorem home_erase (t : Tree) (loc : Location) : (t.erase loc).home = t.home := rfl

theorem entry?_put (t : Tree) {loc : Location} (hloc : loc ≠ []) (e : Entry) (l : Location) :
    entry? (t.put loc e) l = if l = loc then some e else t.entry? l := by
  unfold entry? put
  simp only [OrderedMap.get?_insert, Std.LawfulEqOrd.compare_eq_iff_eq]
  by_cases hl : l = []
  · simp [hl, Ne.symm hloc]
  · simp [hl]

theorem entry?_erase (t : Tree) {loc : Location} (hloc : loc ≠ []) (l : Location) :
    entry? (t.erase loc) l = if l = loc then none else t.entry? l := by
  unfold entry? erase
  simp only [OrderedMap.get?_filter]
  by_cases hl : l = []
  · simp [hl, Ne.symm hloc]
  · by_cases h : l = loc
    · simp [h, hloc]
    · have hkeep : (l != loc) = true := bne_iff_ne.2 h
      rw [if_neg hl, if_neg h, if_neg hl]
      cases t.entries.get? l <;> simp [hkeep]

end CoverageRun.Files.Tree
