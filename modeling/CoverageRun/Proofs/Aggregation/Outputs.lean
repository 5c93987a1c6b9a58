/-
Storing a report: it is staged beside the report path and renamed, and the raw output that stands
there as well is discarded. Then the report is at its path, the other two paths lead to nothing, and
all else is as it was.

This holds for a report path whose directory part does not lead through a link at the report path
itself. Where it does, the report takes the place of that link, and the paths lead nowhere any more.
-/
import CoverageRun.Aggregation.Outputs
import CoverageRun.Proofs.Files.Following

namespace CoverageRun.Aggregation

open Files

/-! ## The files of a report -/

/-- A report, its raw output and its staged form stand side by side. -/
structure Sites (t : Tree) (p : Path) (d : Descent) (name : String) : Prop where
  report : t.Reaches p d name
  raw : t.Reaches (rawPath p) d (name ++ ".raw")
  staged : t.Reaches (stagedPath p) d (name ++ ".tmp")

theorem ne_append (s : String) {suffix : String} (h : suffix ≠ "") : s ≠ s ++ suffix := by
  intro e
  have hlength := congrArg String.length e
  rw [String.length_append] at hlength
  exact h (String.length_eq_zero_iff.1 (by omega))

theorem report_ne_raw (dir : Location) (name : String) : dir ++ [name] ≠ dir ++ [name ++ ".raw"] := by
  simpa using ne_append name (by decide)

theorem report_ne_staged (dir : Location) (name : String) :
    dir ++ [name] ≠ dir ++ [name ++ ".tmp"] := by
  simpa using ne_append name (by decide)

theorem raw_ne_staged (dir : Location) (name : String) :
    dir ++ [name ++ ".raw"] ≠ dir ++ [name ++ ".tmp"] := by
  simp

namespace Sites

variable {t t' : Tree} {p : Path} {d : Descent} {name : String}

theorem congr (h : Sites t p d name) (hhome : t'.home = t.home)
    (hsame : ∀ loc ∈ d.trail, t'.entry? loc = t.entry? loc) : Sites t' p d name :=
  ⟨h.report.congr hhome hsame, h.raw.congr hhome hsame, h.staged.congr hhome hsame⟩

theorem locate?_ne (h : Sites t p d name) {loc : Location} (hp : t.locate? p ≠ some loc) :
    loc ≠ d.dir ++ [name] :=
  fun e => hp (e ▸ h.report.locate?)

theorem locate?_raw_ne (h : Sites t p d name) {loc : Location}
    (hr : t.locate? (rawPath p) ≠ some loc) : loc ≠ d.dir ++ [name ++ ".raw"] :=
  fun e => hr (e ▸ h.raw.locate?)

theorem locate?_staged_ne (h : Sites t p d name) {loc : Location}
    (hs : t.locate? (stagedPath p) ≠ some loc) : loc ≠ d.dir ++ [name ++ ".tmp"] :=
  fun e => hs (e ▸ h.staged.locate?)

end Sites

/-! ## Staging and renaming -/

/-- What storing a report leaves of the tree in which its raw output was found. -/
structure Stored (t t' : Tree) (p : Path) (bytes : List UInt8) : Prop where
  home : t'.home = t.home
  kept : ∀ loc, t.locate? p ≠ some loc → t.locate? (rawPath p) ≠ some loc →
    t.locate? (stagedPath p) ≠ some loc → t'.entry? loc = t.entry? loc
  report : t.leadsThroughItself p = false → t'.readBytes p = .ok bytes
  raw : t.leadsThroughItself p = false → t'.find false (rawPath p) = .error .missing
  staged : t.leadsThroughItself p = false → t'.find false (stagedPath p) = .error .missing
  astray : t.leadsThroughItself p = true →
    ∀ q ∈ [p, rawPath p, stagedPath p], t'.place true q = .error .notDirectory

/-- A tree in which a report was staged and has been renamed. -/
structure Renamed (t t' : Tree) (d : Descent) (name : String) (bytes : List UInt8) : Prop where
  home : t'.home = t.home
  report : ∃ executable, t'.entry? (d.dir ++ [name]) = some (.file bytes executable)
  staged : t'.entry? (d.dir ++ [name ++ ".tmp"]) = none
  kept : ∀ loc, loc ≠ d.dir ++ [name] → loc ≠ d.dir ++ [name ++ ".tmp"] →
    t'.entry? loc = t.entry? loc

namespace Renamed

variable {t t' : Tree} {p : Path} {d : Descent} {name : String} {bytes : List UInt8}

/-- A report path that leads through itself: the report stands on the way, so that the raw output
stays and nothing is read any more. -/
theorem stored_astray (h : Renamed t t' d name bytes) (hsites : Sites t p d name)
    (hstaged : d.dir ++ [name ++ ".tmp"] ∉ d.trail) (hself : d.dir ++ [name] ∈ d.trail) :
    Stored t (t'.discard (rawPath p)) p bytes := by
  obtain ⟨executable, hfile⟩ := h.report
  have hkept : ∀ loc ∈ d.trail, loc ≠ d.dir ++ [name] → t'.entry? loc = t.entry? loc :=
    fun loc hloc hne => h.kept loc hne (ne_of_mem_of_not_mem hloc hstaged)
  have hnot : t.leadsThroughItself p ≠ false := by
    rw [hsites.report.leadsThroughItself, decide_eq_true hself]
    decide
  -- the report is a file now, so the way to the raw output ends at it
  have hdiscard : t'.discard (rawPath p) = t' :=
    Tree.discard_of_place (hsites.raw.blocked h.home hself hfile hkept false)
  rw [hdiscard]
  constructor
  case home => exact h.home
  case kept =>
    exact fun loc hp _ hs => h.kept loc (hsites.locate?_ne hp) (hsites.locate?_staged_ne hs)
  case report => exact fun hthrough => absurd hthrough hnot
  case raw => exact fun hthrough => absurd hthrough hnot
  case staged => exact fun hthrough => absurd hthrough hnot
  case astray =>
    intro _ q hq
    simp only [List.mem_cons, List.not_mem_nil, or_false] at hq
    rcases hq with rfl | rfl | rfl
    · exact hsites.report.blocked h.home hself hfile hkept true
    · exact hsites.raw.blocked h.home hself hfile hkept true
    · exact hsites.staged.blocked h.home hself hfile hkept true

/-- A report path that does not lead through itself: the way to the files stays as it was, so that
the raw output is found and discarded. -/
theorem stored_plain (h : Renamed t t' d name bytes) (hsites : Sites t p d name)
    (hstaged : d.dir ++ [name ++ ".tmp"] ∉ d.trail) (hself : d.dir ++ [name] ∉ d.trail)
    {e : Entry} (he : t.entry? (d.dir ++ [name ++ ".raw"]) = some e) (hdir : e ≠ .directory)
    (hraw : d.dir ++ [name ++ ".raw"] ∉ d.trail) : Stored t (t'.discard (rawPath p)) p bytes := by
  obtain ⟨executable, hfile⟩ := h.report
  have hsites' : Sites t' p d name := hsites.congr h.home fun loc hloc =>
    h.kept loc (ne_of_mem_of_not_mem hloc hself) (ne_of_mem_of_not_mem hloc hstaged)
  have he' : t'.entry? (d.dir ++ [name ++ ".raw"]) = some e := by
    rw [h.kept _ (report_ne_raw d.dir name).symm (raw_ne_staged d.dir name), he]
  have hnot : t.leadsThroughItself p ≠ true := by
    rw [hsites.report.leadsThroughItself, decide_eq_false hself]
    decide
  rw [hsites'.raw.discard he' hdir]
  have herased : ∀ loc, loc ≠ d.dir ++ [name ++ ".raw"] →
      Tree.entry? (t'.erase (d.dir ++ [name ++ ".raw"])) loc = t'.entry? loc := by
    intro loc hne
    rw [Tree.entry?_erase t' (by simp), if_neg hne]
  -- raw output was read, so it is no link that the way leads through
  have hsites'' : Sites (t'.erase (d.dir ++ [name ++ ".raw"])) p d name :=
    hsites'.congr rfl fun loc hloc => herased loc (ne_of_mem_of_not_mem hloc hraw)
  constructor
  case home => exact h.home
  case kept =>
    intro loc hp hr hs
    rw [herased loc (hsites.locate?_raw_ne hr),
      h.kept loc (hsites.locate?_ne hp) (hsites.locate?_staged_ne hs)]
  case report =>
    intro _
    have hfile' := (herased _ (report_ne_raw d.dir name)).trans hfile
    unfold Tree.readBytes
    rw [hsites''.report.find (.inr (by simp [hfile'])), hfile']
  case raw =>
    intro _
    rw [hsites''.raw.find (.inl rfl), Tree.entry?_erase t' (by simp), if_pos rfl]
  case staged =>
    intro _
    rw [hsites''.staged.find (.inl rfl), herased _ (raw_ne_staged d.dir name).symm, h.staged]
  case astray => exact fun hthrough => absurd hthrough hnot

end Renamed

section Rename

variable {t t₁ t₂ : Tree} {p : Path} {bytes : List UInt8}

/-- Where raw output is read, and a report is staged and renamed, their paths lead to one directory, and
staging puts the report where the staged path leads, which is not on the way there. -/
theorem exists_sites {raw : List UInt8} (hraw : t.readBytes (rawPath p) = .ok raw)
    (hw : t.write (stagedPath p) bytes = .ok t₁) (hr : t₁.rename (stagedPath p) p = .ok t₂) :
    ∃ d name place loc executable, Sites t p d name ∧ t.place true (stagedPath p) = .ok place ∧
      place.fileAt? = some loc ∧ loc ∉ d.trail ∧ t₁ = t.put loc (.file bytes executable) := by
  have hname := Tree.endsInName_of_rename hr
  have hnotEmpty := text_ne_empty_of_endsInName hname
  have hname' : Tree.endsInName (stagedPath p) = true :=
    Tree.endsInName_of_write (by simp [stagedPath, Path.withSuffix]) hw
  obtain ⟨route, name, hp, hlonger⟩ := endsIn_of_endsInName hname
  have hendsRaw := hlonger ".raw" (by decide) (by decide)
  have hendsStaged := hlonger ".tmp" (by decide) (by decide)
  obtain ⟨place, hplace⟩ := Tree.place_of_readBytes hraw
  obtain ⟨d, hreachRaw⟩ := Tree.reaches_of_place hendsRaw hplace
  obtain ⟨place', loc, executable, hplace', hloc, rfl⟩ := Tree.fileAt?_of_write hname' hw
  -- all three names are looked up in one directory, as nothing before the name differs
  have hreachStaged : t.Reaches (stagedPath p) d (name ++ ".tmp") :=
    hreachRaw.sibling hendsRaw hendsStaged
      ((beginning_withSuffix hnotEmpty _ _).trans (beginning_withSuffix hnotEmpty _ _).symm) hplace'
  obtain ⟨locs, -, hfollowed⟩ := hreachStaged.followed hplace'
  obtain ⟨hne, hfree⟩ := hfollowed.entry?_of_fileAt? hloc
  obtain ⟨route', -, hway⟩ := hreachStaged.way
  have hbeside := hway.not_mem_trail hfree
  -- the way is the same before and after staging, so the report path leads along it as well
  have hsame : ∀ l ∈ d.trail,
      Tree.entry? (t.put loc (.file bytes executable)) l = t.entry? l := by
    intro l hl
    rw [Tree.entry?_put t hne, if_neg (ne_of_mem_of_not_mem hl hbeside)]
  obtain ⟨place'', hplace''⟩ := Tree.place_of_rename hname hr
  have hreach := (hreachStaged.congr (Tree.home_put t _ _) hsame).sibling hendsStaged hp
    (beginning_withSuffix hnotEmpty _ _).symm hplace''
  exact ⟨d, name, place', loc, executable,
    ⟨hreach.congr rfl fun l hl => (hsame l hl).symm, hreachRaw, hreachStaged⟩, hplace', hloc,
    hbeside, rfl⟩

/-- A report staged over no link is staged under its own name. -/
theorem Sites.fileAt?_staged {d : Descent} {name : String} {place : Place} {loc : Location}
    (h : Sites t p d name)
    (hlink : ∀ target, t.entry? (d.dir ++ [name ++ ".tmp"]) ≠ some (.link target))
    (hplace : t.place true (stagedPath p) = .ok place) (hloc : place.fileAt? = some loc) :
    loc = d.dir ++ [name ++ ".tmp"] := by
  rw [h.staged.place (.inr hlink)] at hplace
  rcases he : t.entry? (d.dir ++ [name ++ ".tmp"]) with _ | _ | ⟨b, x⟩ | target <;>
    rw [he] at hplace <;> cases hplace <;> cases hloc
  · rfl
  · rfl

theorem renamed_of_rename {d : Descent} {name : String} {executable : Bool} (h : Sites t p d name)
    (hstaged : d.dir ++ [name ++ ".tmp"] ∉ d.trail)
    (hr : (t.put (d.dir ++ [name ++ ".tmp"]) (.file bytes executable)).rename (stagedPath p) p =
      .ok t₂) : Renamed t t₂ d name bytes := by
  have hput : ∀ loc, Tree.entry? (t.put (d.dir ++ [name ++ ".tmp"]) (.file bytes executable)) loc =
      if loc = d.dir ++ [name ++ ".tmp"] then some (.file bytes executable) else t.entry? loc :=
    Tree.entry?_put t (by simp) _
  have h' : Sites (t.put (d.dir ++ [name ++ ".tmp"]) (.file bytes executable)) p d name :=
    h.congr rfl fun loc hloc => by rw [hput, if_neg (ne_of_mem_of_not_mem hloc hstaged)]
  obtain ⟨-, rfl⟩ := h'.staged.rename (by rw [hput, if_pos rfl]) h'.report
    (report_ne_staged d.dir name) (Tree.endsInName_of_rename hr) hr
  have hentry : ∀ loc, Tree.entry? (((t.put (d.dir ++ [name ++ ".tmp"]) (.file bytes executable)).erase
      (d.dir ++ [name ++ ".tmp"])).put (d.dir ++ [name]) (.file bytes executable)) loc =
      if loc = d.dir ++ [name] then some (.file bytes executable)
      else if loc = d.dir ++ [name ++ ".tmp"] then none else t.entry? loc := by
    intro loc
    rw [Tree.entry?_put _ (by simp), Tree.entry?_erase _ (by simp), hput]
    split
    · rfl
    split <;> rfl
  constructor
  case home => rfl
  case report => exact ⟨executable, by rw [hentry, if_pos rfl]⟩
  case staged => rw [hentry, if_neg (report_ne_staged d.dir name).symm, if_pos rfl]
  case kept =>
    intro loc hreport hstaged'
    rw [hentry, if_neg hreport, if_neg hstaged']

/-- Where raw output has been read, and a report is staged over no link, renamed, and the raw output
discarded, the report is stored. -/
theorem stored_of_rename {raw : List UInt8} (hraw : t.readBytes (rawPath p) = .ok raw)
    (hlink : ∀ loc target, t.find false (stagedPath p) ≠ .ok (loc, .link target))
    (hw : t.write (stagedPath p) bytes = .ok t₁) (hr : t₁.rename (stagedPath p) p = .ok t₂) :
    Stored t (t₂.discard (rawPath p)) p bytes := by
  obtain ⟨d, name, place, loc, executable, hsites, hplace, hloc, hstaged, rfl⟩ :=
    exists_sites hraw hw hr
  have hnoLink : ∀ target, t.entry? (d.dir ++ [name ++ ".tmp"]) ≠ some (.link target) := by
    intro target he
    refine hlink (d.dir ++ [name ++ ".tmp"]) target ?_
    rw [hsites.staged.find (.inl rfl), he]
  obtain rfl := hsites.fileAt?_staged hnoLink hplace hloc
  have hrenamed := renamed_of_rename hsites hstaged hr
  obtain ⟨e, he, hdir, hbeside⟩ := hsites.raw.readBytes hraw
  by_cases hself : d.dir ++ [name] ∈ d.trail
  · exact hrenamed.stored_astray hsites hstaged hself
  · obtain ⟨route, -, hway⟩ := hsites.raw.way
    exact hrenamed.stored_plain hsites hstaged hself he hdir (hbeside hway)

end Rename

end CoverageRun.Aggregation
