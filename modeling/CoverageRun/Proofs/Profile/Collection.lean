/-
Which files are collected. A file below a directory is collected if its name has the extension and
no directory on the way to it is skipped; so what is collected is a question of the file and of the
directories above it. Removing the profiles takes these files and nothing else.
-/
import CoverageRun.Profile.Collection
import CoverageRun.Proofs.Files.Tree
import Mathlib.Data.List.Basic

namespace CoverageRun

open Files

/-! ## Entries below a directory -/

namespace Files.Tree

theorem get?_erase (t : Tree) (loc l : Location) :
    (t.erase loc).entries.get? l = if l = loc then none else t.entries.get? l := by
  unfold erase
  rw [Store.OrderedMap.get?_filter]
  split
  · rename_i hl
    cases t.entries.get? l <;> simp [hl]
  · rename_i hl
    cases t.entries.get? l <;> simp [hl]

theorem home_foldl_erase (locs : List Location) : ∀ t : Tree, (locs.foldl erase t).home = t.home := by
  induction locs with
  | nil => exact fun _ => rfl
  | cons loc locs ih => exact fun t => ih (t.erase loc)

theorem get?_foldl_erase (l : Location) : ∀ (locs : List Location) (t : Tree),
    (locs.foldl erase t).entries.get? l = if l ∈ locs then none else t.entries.get? l
  | [], t => by simp
  | loc :: locs, t => by
    rw [List.foldl_cons, get?_foldl_erase l locs, get?_erase]
    by_cases hl : l = loc <;> by_cases hlocs : l ∈ locs <;> simp [hl, hlocs]

theorem below?_eq_some {dir loc rest : Location} : below? dir loc = some rest ↔ loc = dir ++ rest := by
  unfold below?
  split
  · rename_i hprefix
    obtain ⟨r, rfl⟩ := List.isPrefixOf_iff_prefix.1 hprefix
    simp [eq_comm]
  · rename_i hprefix
    simp only [reduceCtorEq, false_iff]
    rintro rfl
    exact absurd (List.isPrefixOf_iff_prefix.2 (List.prefix_append dir rest)) hprefix

theorem mem_children {t : Tree} {dir : Location} {name : String} {e : Entry} :
    (name, e) ∈ t.children dir ↔ t.entries.get? (dir ++ [name]) = some e := by
  unfold children
  rw [List.mem_filterMap, Store.OrderedMap.get?_eq_some_iff]
  constructor
  · rintro ⟨⟨loc, e'⟩, hmem, hchild⟩
    simp only at hchild
    split at hchild <;> cases hchild
    rename_i hbelow
    exact ⟨loc, hmem, by rw [below?_eq_some.1 hbelow]; exact Std.ReflCmp.compare_self⟩
  · rintro ⟨loc, hmem, heq⟩
    rw [← Std.LawfulEqOrd.eq_of_compare heq] at hmem
    refine ⟨_, hmem, ?_⟩
    simp only [below?_eq_some.2 rfl]

theorem length_le_depth {t : Tree} {loc : Location} {e : Entry} (h : t.entries.get? loc = some e) :
    loc.length ≤ t.depth := by
  obtain ⟨loc', hmem, heq⟩ := Store.OrderedMap.exists_of_get? h
  rw [← Std.LawfulEqOrd.eq_of_compare heq] at hmem
  have hlength : loc.length ∈ t.entries.keys.map List.length :=
    List.mem_map_of_mem (List.mem_map_of_mem hmem)
  unfold depth
  rw [List.foldl_max]
  exact Nat.le_trans (List.le_max?_getD_of_mem hlength) (Nat.le_max_right ..)

end Files.Tree

namespace Profile

variable {t t' : Tree} {root : Path} {loc : Location}

/-! ## The walk -/

/-- Names that lead from a directory through others that are not skipped to a profile. -/
inductive Leads (t : Tree) : Location → List String → Prop
  | profile {dir : Location} {name : String} {e : Entry} :
    t.entries.get? (dir ++ [name]) = some e → isProfile name e = true → Leads t dir [name]
  | into {dir : Location} {name : String} {names : List String} :
    t.entries.get? (dir ++ [name]) = some .directory → isSkipped name = false →
    Leads t (dir ++ [name]) names → Leads t dir (name :: names)

theorem Leads.file {dir : Location} {names : List String} (h : Leads t dir names) :
    ∃ b x, t.entries.get? (dir ++ names) = some (.file b x) := by
  induction h with
  | @profile dir name e hentry hprofile =>
    cases e with
    | file b x => exact ⟨b, x, hentry⟩
    | directory => cases hprofile
    | link target => cases hprofile
  | into _ _ _ ih => simpa using ih

theorem mem_namesWithin : ∀ {depth : Nat} {dir : Location} {names : List String},
    names ∈ namesWithin t depth dir ↔ Leads t dir names ∧ names.length ≤ depth
  | 0, dir, names => by
    simp only [namesWithin, List.not_mem_nil, false_iff, not_and]
    intro h
    cases h <;> simp
  | depth + 1, dir, names => by
    rw [namesWithin, List.mem_flatMap]
    constructor
    · rintro ⟨⟨name, e⟩, hchild, hnames⟩
      rw [Tree.mem_children] at hchild
      simp only at hnames
      split at hnames
      · split at hnames
        · cases hnames
        · rename_i hskip
          obtain ⟨rest, hrest, rfl⟩ := List.mem_map.1 hnames
          obtain ⟨hleads, hlength⟩ := mem_namesWithin.1 hrest
          exact ⟨.into hchild (Bool.eq_false_iff.2 hskip) hleads, by simpa using hlength⟩
      · split at hnames
        · rename_i hprofile
          rw [List.mem_singleton.1 hnames]
          exact ⟨.profile hchild hprofile, by simp⟩
        · cases hnames
    · rintro ⟨hleads, hlength⟩
      cases hleads with
      | @profile _ name e hentry hprofile =>
        refine ⟨(name, e), Tree.mem_children.2 hentry, ?_⟩
        cases e with
        | directory => cases hprofile
        | file b x => simp [hprofile]
        | link target => cases hprofile
      | @into _ name rest hentry hskip hrest =>
        refine ⟨(name, .directory), Tree.mem_children.2 hentry, ?_⟩
        simp only [hskip, Bool.false_eq_true, if_false]
        exact List.mem_map_of_mem (mem_namesWithin.2 ⟨hrest, by simpa using hlength⟩)

/-- The walk goes as deep as there is anything. -/
theorem mem_namesBelow {dir : Location} {names : List String} :
    names ∈ namesBelow t dir ↔ Leads t dir names := by
  unfold namesBelow
  rw [mem_namesWithin, and_iff_left_iff_imp]
  intro h
  obtain ⟨b, x, hentry⟩ := h.file
  have := Tree.length_le_depth hentry
  rw [List.length_append] at this
  omega

/-! ## What is collected -/

theorem root_collect (t : Tree) (root : Path) : (collect t root).root = root := by
  unfold collect
  split <;> rfl

/-- The locations of the profiles below a directory. -/
def collected (t : Tree) (root : Path) : List Location :=
  match directoryAt? t root with
  | some dir => (namesBelow t dir).map (dir ++ ·)
  | none => []

theorem mem_collected : loc ∈ collected t root ↔
    ∃ dir names, directoryAt? t root = some dir ∧ Leads t dir names ∧ loc = dir ++ names := by
  unfold collected
  cases directoryAt? t root with
  | none => simp
  | some dir => simp [mem_namesBelow, eq_comm]

theorem file_of_mem_collected (h : loc ∈ collected t root) :
    ∃ b x, t.entries.get? loc = some (.file b x) := by
  obtain ⟨dir, names, -, hleads, rfl⟩ := mem_collected.1 h
  exact hleads.file

theorem Leads.congr {dir : Location} {names : List String} (h : Leads t dir names)
    (hdirs : ∀ l, t.entries.get? l = some .directory → t'.entries.get? l = some .directory)
    (hloc : t'.entries.get? (dir ++ names) = t.entries.get? (dir ++ names)) : Leads t' dir names := by
  induction h with
  | profile hentry hprofile => exact .profile (hloc.trans hentry) hprofile
  | into hentry hskip _ ih => exact .into (hdirs _ hentry) hskip (ih (by simpa using hloc))

/-- A profile is collected in another tree, too, that has the same directories and the profile. -/
theorem mem_collected_congr (h : loc ∈ collected t root)
    (hroot : directoryAt? t' root = directoryAt? t root)
    (hdirs : ∀ l, t.entries.get? l = some .directory → t'.entries.get? l = some .directory)
    (hloc : t'.entries.get? loc = t.entries.get? loc) : loc ∈ collected t' root := by
  obtain ⟨dir, names, hdir, hleads, rfl⟩ := mem_collected.1 h
  exact mem_collected.2 ⟨dir, names, hroot.trans hdir, hleads.congr hdirs hloc, rfl⟩

/-! ## Removing -/

theorem removeAll_eq (t : Tree) (root : Path) :
    (removeAll t root).2 = (collected t root).foldl Tree.erase t := by
  unfold removeAll collected
  cases directoryAt? t root with
  | none => rfl
  | some dir => exact (List.foldl_map ..).symm

/-- What is collected is removed, and nothing else. -/
theorem get?_removeAll (t : Tree) (root : Path) (loc : Location) :
    (removeAll t root).2.entries.get? loc =
      if loc ∈ collected t root then none else t.entries.get? loc := by
  rw [removeAll_eq, Tree.get?_foldl_erase]

theorem home_removeAll (t : Tree) (root : Path) : (removeAll t root).2.home = t.home := by
  rw [removeAll_eq, Tree.home_foldl_erase]

end Profile

end CoverageRun
