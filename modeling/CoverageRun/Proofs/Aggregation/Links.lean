/-
Storing a report through a link. Where the staged path is a link the report is written where that
link leads, and renaming moves the link itself to the report path. It is read there exactly if on
the way to it there is neither what the link takes the place of nor the raw output, which is
discarded.
-/
import CoverageRun.Proofs.Aggregation.Outputs

namespace CoverageRun.Aggregation

open Files

/-- Whether the staged path leads through or to what is there no more once a report is stored: what
the report path names, and what the path of the raw output names. -/
def displaces (t : Tree) (p : Path) : Bool :=
  [p, rawPath p].any fun q =>
    (t.locate? q).any fun loc => (t.visitsOf true (stagedPath p)).contains loc

theorem Sites.displaces_eq_false {t : Tree} {p : Path} {d : Descent} {name : String}
    (h : Sites t p d name) : displaces t p = false ↔
      d.dir ++ [name] ∉ t.visitsOf true (stagedPath p) ∧
        d.dir ++ [name ++ ".raw"] ∉ t.visitsOf true (stagedPath p) := by
  simp [displaces, h.report.locate?, h.raw.locate?]

/-! ## Reports staged through a link -/

/-- A staged path that is a link, where the link leads, and the locations looked up behind it. -/
structure Linked (t : Tree) (p : Path) (d : Descent) (name target : String) (loc : Location)
    (behind : List Location) : Prop where
  sites : Sites t p d name
  link : t.entry? (d.dir ++ [name ++ ".tmp"]) = some (.link target)
  leads : ∃ fewer place, d.links = fewer + 1 ∧ place.fileAt? = some loc ∧
    t.Followed fewer (beginning d.dir target) (pieces target) place behind

/-- The tree once a report that was staged through a link is renamed, and the raw output discarded: the
link stands at the report path, and the rest is as staging has left it. -/
structure Moved (t t₃ : Tree) (p : Path) (d : Descent) (name target : String) (loc : Location)
    (bytes : List UInt8) (executable : Bool) : Prop where
  sites : Sites t₃ p d name
  entries : ∀ l, t₃.entry? l = if l = d.dir ++ [name] then some (.link target)
    else if l = d.dir ++ [name ++ ".tmp"] ∨ l = d.dir ++ [name ++ ".raw"] then none
    else Tree.entry? (t.put loc (.file bytes executable)) l

variable {t t₁ t₂ t₃ : Tree} {p : Path} {d : Descent} {name target : String} {loc : Location}
  {behind : List Location} {bytes : List UInt8} {executable : Bool}

namespace Moved

variable (h : Moved t t₃ p d name target loc bytes executable)

include h

theorem link : t₃.entry? (d.dir ++ [name]) = some (.link target) := by
  rw [h.entries, if_pos rfl]

theorem gone {l : Location} (hl : l = d.dir ++ [name ++ ".tmp"] ∨ l = d.dir ++ [name ++ ".raw"]) :
    t₃.entry? l = none := by
  have hreport : l ≠ d.dir ++ [name] := by
    rcases hl with rfl | rfl
    · exact (report_ne_staged d.dir name).symm
    · exact (report_ne_raw d.dir name).symm
  rw [h.entries, if_neg hreport, if_pos hl]

theorem kept {l : Location} (hreport : l ≠ d.dir ++ [name]) (hstaged : l ≠ d.dir ++ [name ++ ".tmp"])
    (hraw : l ≠ d.dir ++ [name ++ ".raw"]) :
    t₃.entry? l = Tree.entry? (t.put loc (.file bytes executable)) l := by
  rw [h.entries, if_neg hreport, if_neg (by simp [hstaged, hraw])]

end Moved

theorem linked_of_place {place : Place} (hsites : Sites t p d name)
    (hlink : t.entry? (d.dir ++ [name ++ ".tmp"]) = some (.link target))
    (hplace : t.place true (stagedPath p) = .ok place) (hloc : place.fileAt? = some loc) :
    ∃ behind, Linked t p d name target loc behind ∧
      t.visitsOf true (stagedPath p) = d.trail ++ (d.dir ++ [name ++ ".tmp"]) :: behind := by
  obtain ⟨locs, hvisits, hfollowed⟩ := hsites.staged.followed hplace
  have hstep := hfollowed.of_lookedUp hsites.staged.lookedUp
  rw [hlink] at hstep
  obtain ⟨fewer, behind, hlinks, rfl, hbehind⟩ := hstep
  rw [List.append_nil] at hbehind
  exact ⟨behind, ⟨hsites, hlink, fewer, place, hlinks, hloc, hbehind⟩, hvisits⟩

namespace Linked

variable (h : Linked t p d name target loc behind)

include h

/-- What the link leads to stands on no way, and is not the link. -/
theorem loc_free : loc ≠ [] ∧ loc ∉ d.trail ∧ loc ≠ d.dir ++ [name ++ ".tmp"] := by
  obtain ⟨fewer, place, -, hloc, hfollowed⟩ := h.leads
  obtain ⟨hne, hfree⟩ := hfollowed.entry?_of_fileAt? hloc
  obtain ⟨route, -, hway⟩ := h.sites.report.way
  refine ⟨hne, hway.not_mem_trail hfree, ?_⟩
  rintro rfl
  rcases hfree with hfree | ⟨b, x, hfree⟩ <;> rw [h.link] at hfree <;> cases hfree

/-- The link leads to a file or a free name, so it is not on the way, nor behind itself. -/
theorem link_free : d.dir ++ [name ++ ".tmp"] ∉ d.trail ∧ d.dir ++ [name ++ ".tmp"] ∉ behind := by
  obtain ⟨fewer, place, hlinks, hloc, hfollowed⟩ := h.leads
  refine ⟨fun hmem => ?_, hfollowed.not_mem_behind h.link⟩
  obtain ⟨route, -, hway⟩ := h.sites.staged.way
  have hlast : t.Followed d.links d.dir [name ++ ".tmp"] place
      ((d.dir ++ [name ++ ".tmp"]) :: behind) := by
    rw [hlinks]
    exact .along h.sites.staged.lookedUp h.link (by rwa [List.append_nil])
  obtain ⟨l, rfl⟩ := h.sites.staged.place_of_mem_trail h.link hway hmem
    (h.sites.staged.place_of_followed hlast)
  cases hloc

/-- After staging the way is as it was. -/
theorem staged : Sites (t.put loc (.file bytes executable)) p d name := by
  obtain ⟨hne, hbeside, -⟩ := h.loc_free
  refine h.sites.congr (Tree.home_put t _ _) fun l hl => ?_
  rw [Tree.entry?_put t hne, if_neg (ne_of_mem_of_not_mem hl hbeside)]

/-- Renaming moves the link. -/
theorem renamed (hr : (t.put loc (.file bytes executable)).rename (stagedPath p) p = .ok t₂) :
    t₂.home = t.home ∧ ∀ l, t₂.entry? l = if l = d.dir ++ [name] then some (.link target)
      else if l = d.dir ++ [name ++ ".tmp"] then none
      else Tree.entry? (t.put loc (.file bytes executable)) l := by
  obtain ⟨hne, -, hother⟩ := h.loc_free
  have hlink : Tree.entry? (t.put loc (.file bytes executable)) (d.dir ++ [name ++ ".tmp"]) =
      some (.link target) := by
    rw [Tree.entry?_put t hne, if_neg hother.symm, h.link]
  obtain ⟨-, rfl⟩ := h.staged.staged.rename hlink h.staged.report (report_ne_staged d.dir name)
    (Tree.endsInName_of_rename hr) hr
  refine ⟨rfl, fun l => ?_⟩
  rw [Tree.entry?_put _ (by simp), Tree.entry?_erase _ (by simp)]

/-- A report path that does not lead through itself: the raw output is found and discarded. -/
theorem discarded (hr : (t.put loc (.file bytes executable)).rename (stagedPath p) p = .ok t₂)
    (hself : d.dir ++ [name] ∉ d.trail) {raw : List UInt8} (hraw : t.readBytes (rawPath p) = .ok raw) :
    Moved t (t₂.discard (rawPath p)) p d name target loc bytes executable := by
  obtain ⟨hhome, hentry⟩ := h.renamed hr
  obtain ⟨hne, hbeside, -⟩ := h.loc_free
  obtain ⟨hlinkFree, -⟩ := h.link_free
  obtain ⟨e, he, hdir, hrawFree⟩ := h.sites.raw.readBytes hraw
  obtain ⟨route, -, hway⟩ := h.sites.raw.way
  have hput := Tree.entry?_put t hne (.file bytes executable)
  have hsites : Sites t₂ p d name := by
    refine h.sites.congr hhome fun l hl => ?_
    rw [hentry, if_neg (ne_of_mem_of_not_mem hl hself), if_neg (ne_of_mem_of_not_mem hl hlinkFree),
      hput, if_neg (ne_of_mem_of_not_mem hl hbeside)]
  -- the raw output is still there, if the report was not written over it
  obtain ⟨e', he', hdir'⟩ : ∃ e', t₂.entry? (d.dir ++ [name ++ ".raw"]) = some e' ∧
      e' ≠ .directory := by
    rw [hentry, if_neg (report_ne_raw d.dir name).symm, if_neg (raw_ne_staged d.dir name), hput]
    by_cases hl : d.dir ++ [name ++ ".raw"] = loc
    · exact ⟨_, by rw [if_pos hl], by simp⟩
    · exact ⟨e, by rw [if_neg hl, he], hdir⟩
  rw [hsites.raw.discard he' hdir']
  have herase := Tree.entry?_erase t₂ (by simp : d.dir ++ [name ++ ".raw"] ≠ [])
  constructor
  · refine hsites.congr rfl fun l hl => ?_
    rw [herase, if_neg (ne_of_mem_of_not_mem hl (hrawFree hway))]
  · intro l
    rw [herase, hentry]
    by_cases hreport : l = d.dir ++ [name]
    · rw [if_pos hreport, if_pos hreport, if_neg (hreport ▸ report_ne_raw d.dir name)]
    · rw [if_neg hreport, if_neg hreport]
      by_cases hl : l = d.dir ++ [name ++ ".raw"]
      · rw [if_pos hl, if_pos (.inr hl)]
      · rw [if_neg hl]
        by_cases hstaged : l = d.dir ++ [name ++ ".tmp"]
        · rw [if_pos hstaged, if_pos (.inl hstaged)]
        · rw [if_neg hstaged, if_neg (by simp [hstaged, hl])]

/-- A report that is read through the link that was moved is reached through nothing that is gone. -/
theorem not_mem_of_readBytes (hmoved : Moved t t₃ p d name target loc bytes executable)
    (hread : t₃.readBytes p = .ok bytes) :
    d.dir ++ [name] ∉ behind ∧ d.dir ++ [name ++ ".raw"] ∉ behind := by
  obtain ⟨fewer, place, -, hloc, hfollowed⟩ := h.leads
  obtain ⟨place₃, hplace₃⟩ := Tree.place_of_readBytes hread
  obtain ⟨locs, -, hlast⟩ := hmoved.sites.report.followed hplace₃
  obtain ⟨fewer₃, behind₃, hbehind₃⟩ := hlast.of_link hmoved.sites.report.lookedUp hmoved.link
  rw [List.append_nil] at hbehind₃
  -- what the way behind the moved link leads through is there, so it was there before
  have hnoReport := hbehind₃.not_mem_behind hmoved.link
  have hnotFree : ∀ l ∈ behind₃, t₃.entry? l ≠ none := by
    intro l hl hfree
    obtain ⟨dir, last, rfl⟩ := hbehind₃.vacant_of_mem hl hfree
    unfold Tree.readBytes Tree.find at hread
    rw [hplace₃] at hread
    cases hread
  have hbefore := hbehind₃.congr fun l hl => (hmoved.kept (ne_of_mem_of_not_mem hl hnoReport)
    (fun e => hnotFree l hl (hmoved.gone (.inl e)))
    fun e => hnotFree l hl (hmoved.gone (.inr e))).symm
  rw [← ((hfollowed.put hloc bytes executable).unique hbefore).2]
  exact ⟨hnoReport, fun hl => hnotFree _ hl (hmoved.gone (.inr rfl))⟩

/-- Where nothing is gone that it is reached through, the report is read through the moved link. -/
theorem readBytes_of_not_mem (hmoved : Moved t t₃ p d name target loc bytes executable)
    (hnoReport : d.dir ++ [name] ∉ behind) (hnoRaw : d.dir ++ [name ++ ".raw"] ∉ behind) :
    t₃.readBytes p = .ok bytes := by
  obtain ⟨fewer, place, hlinks, hloc, hfollowed⟩ := h.leads
  obtain ⟨-, hnotBehind⟩ := h.link_free
  have hbehind₃ : t₃.Followed fewer (beginning d.dir target) (pieces target)
      (.entry loc (.file bytes executable)) behind :=
    (hfollowed.put hloc bytes executable).congr fun l hl =>
      hmoved.kept (ne_of_mem_of_not_mem hl hnoReport) (ne_of_mem_of_not_mem hl hnotBehind)
        (ne_of_mem_of_not_mem hl hnoRaw)
  have hlast : t₃.Followed d.links d.dir [name] (.entry loc (.file bytes executable))
      ((d.dir ++ [name]) :: behind) := by
    rw [hlinks]
    exact .along hmoved.sites.report.lookedUp hmoved.link (by rwa [List.append_nil])
  unfold Tree.readBytes Tree.find
  rw [hmoved.sites.report.place_of_followed hlast]

/-- A report path that leads through itself: the moved link stands on the way, and behind it there is
no directory, so that nothing is read any more. -/
theorem not_readBytes (hr : (t.put loc (.file bytes executable)).rename (stagedPath p) p = .ok t₂)
    (hself : d.dir ++ [name] ∈ d.trail) (read : List UInt8) :
    (t₂.discard (rawPath p)).readBytes p ≠ .ok read := by
  intro hread
  obtain ⟨hhome, hentry⟩ := h.renamed hr
  obtain ⟨hne, hbeside, -⟩ := h.loc_free
  obtain ⟨hlinkFree, -⟩ := h.link_free
  obtain ⟨rawRoute, hrawEnds, -⟩ := h.sites.raw.endsIn
  obtain ⟨route, hends, hway⟩ := h.sites.report.endsIn
  have hput := Tree.entry?_put t hne (.file bytes executable)
  have hdiscard := Tree.entry?_discard hrawEnds t₂
  have hlink : Tree.entry? (t₂.discard (rawPath p)) (d.dir ++ [name]) = some (.link target) := by
    rcases hdiscard (d.dir ++ [name]) with hsame | ⟨-, dir, hraw⟩
    · rw [hsame, hentry, if_pos rfl]
    · exact absurd (List.cons.inj (List.append_inj' hraw rfl).2).1 (ne_append name (by decide))
  -- the way of the report path meets the link, and goes on behind it
  obtain ⟨place, hplace⟩ := Tree.place_of_readBytes hread
  rw [Tree.place_eq (Tree.walkable_of_place hplace), hends.pieces, Tree.home_discard, hhome] at hplace
  obtain ⟨fewer, holder, piece, rest, locs, hloc, hrest, hfollowed⟩ :=
    Tree.Followed.meets hway hself hlink
      (fun l hl hreport => by
        have hkept : t₂.entry? l = t.entry? l := by
          rw [hentry, if_neg hreport, if_neg (ne_of_mem_of_not_mem hl hlinkFree), hput,
            if_neg (ne_of_mem_of_not_mem hl hbeside)]
        rcases hdiscard l with hsame | ⟨hfree, -⟩
        · exact .inl (hsame.trans hkept)
        · exact .inr hfree)
      (by simp) (Tree.followed_of_walk hplace)
  rw [← (List.append_inj' hloc rfl).1] at hfollowed
  obtain ⟨d', -, hway', -, -⟩ := hfollowed.first rfl hrest
  have hnoReport := (Tree.Followed.of_way hway').not_mem_behind hlink
  -- but before the link was moved it led to the report
  have hbefore : Tree.Way (t.put loc (.file bytes executable)) fewer (beginning d.dir target)
      (pieces target) d' := hway'.congr fun l hl => by
    have hnotFree : Tree.entry? (t₂.discard (rawPath p)) l ≠ none := by
      rcases hway'.entry?_trail l hl with hdir | ⟨target', hlink'⟩
      · simp [hdir]
      · simp [hlink']
    have hkept := (hdiscard l).resolve_right fun hfree => hnotFree hfree.1
    have hstaged : l ≠ d.dir ++ [name ++ ".tmp"] := by
      rintro rfl
      rw [hkept, hentry, if_neg (report_ne_staged d.dir name).symm, if_pos rfl] at hnotFree
      exact hnotFree rfl
    rw [hkept, hentry, if_neg (ne_of_mem_of_not_mem hl hnoReport), if_neg hstaged]
  obtain ⟨n, place', -, hloc', hleads⟩ := h.leads
  have heq := ((hleads.put hloc' bytes executable).unique (Tree.Followed.of_way hbefore)).1
  cases heq

end Linked

/-! ## Reading what was stored -/

/-- Where raw output has been read, and a report is staged, renamed, and the raw output discarded,
the report is read at its path exactly if storing it displaces nothing that it is reached through. -/
theorem readBytes_of_rename_iff {raw : List UInt8} (hraw : t.readBytes (rawPath p) = .ok raw)
    (hw : t.write (stagedPath p) bytes = .ok t₁) (hr : t₁.rename (stagedPath p) p = .ok t₂) :
    (t₂.discard (rawPath p)).readBytes p = .ok bytes ↔ displaces t p = false := by
  obtain ⟨d, name, place, loc, executable, hsites, hplace, hloc, hbeside, rfl⟩ :=
    exists_sites hraw hw hr
  obtain ⟨e, he, hdir, hrawFree⟩ := hsites.raw.readBytes hraw
  obtain ⟨route, -, hway⟩ := hsites.raw.way
  rw [hsites.displaces_eq_false]
  by_cases hlink : ∃ target, t.entry? (d.dir ++ [name ++ ".tmp"]) = some (.link target)
  · obtain ⟨target, hlink⟩ := hlink
    obtain ⟨behind, hlinked, hvisits⟩ := linked_of_place hsites hlink hplace hloc
    simp only [hvisits, List.mem_append, List.mem_cons, not_or, hrawFree hway, not_false_eq_true,
      report_ne_staged d.dir name, raw_ne_staged d.dir name, true_and]
    by_cases hself : d.dir ++ [name] ∈ d.trail
    · simp [hself, hlinked.not_readBytes hr hself]
    · have hmoved := hlinked.discarded hr hself hraw
      simpa [hself] using Iff.intro (hlinked.not_mem_of_readBytes hmoved)
        fun hnot => hlinked.readBytes_of_not_mem hmoved hnot.1 hnot.2
  · have hnoLink : ∀ target, t.entry? (d.dir ++ [name ++ ".tmp"]) ≠ some (.link target) :=
      fun target he => hlink ⟨target, he⟩
    obtain rfl := hsites.fileAt?_staged hnoLink hplace hloc
    have hstored : Stored t (t₂.discard (rawPath p)) p bytes := by
      refine stored_of_rename hraw (fun l target hfind => ?_) hw hr
      rw [hsites.staged.find (.inl rfl)] at hfind
      split at hfind <;> cases hfind
      rename_i hentry
      exact hnoLink target hentry
    obtain ⟨locs, hvisits, hlast⟩ := hsites.staged.followed hplace
    rw [hvisits, hlast.locs_of_fileAt? hsites.staged.lookedUp hloc]
    simp only [List.mem_append, List.mem_singleton, not_or, hrawFree hway, not_false_eq_true,
      report_ne_staged d.dir name, raw_ne_staged d.dir name, and_true]
    have hthrough := hsites.report.leadsThroughItself
    by_cases hself : d.dir ++ [name] ∈ d.trail
    · have hplace₃ := hstored.astray (by simpa [hthrough] using hself) p (by simp)
      simp [hself, Tree.readBytes, Tree.find, hplace₃]
    · simp [hself, hstored.report (by simpa [hthrough] using hself)]

end CoverageRun.Aggregation
