/-
Paths followed to their end, step by step. What a path comes to does not depend on how many links may
be followed, and no path that comes to anything leads through the same link twice: behind it the path
would go on as it did before. A file written through a path is found by following the path again.
-/
import CoverageRun.Proofs.Files.Visits

namespace CoverageRun.Files

/-- Where a file is written that is written through a place. -/
def Place.fileAt? : Place → Option Location
  | .vacant dir name => some (dir ++ [name])
  | .entry loc (.file _ _) => some loc
  | .entry _ _ => none

namespace Tree

/-! ## Steps -/

/-- A route followed to its end, step by step: the place that it comes to and the locations looked up. -/
inductive Followed (t : Tree) : Nat → Location → List String → Place → List Location → Prop
  | done {links : Nat} {dir : Location} : Followed t links dir [] (.entry dir .directory) []
  | here {links : Nat} {dir : Location} {rest : List String} {place : Place} {locs : List Location} :
    Followed t links dir rest place locs → Followed t links dir ("." :: rest) place locs
  | up {links : Nat} {dir : Location} {rest : List String} {place : Place} {locs : List Location} :
    Followed t links dir.dropLast rest place locs → Followed t links dir (".." :: rest) place locs
  | free {links : Nat} {dir : Location} {piece : String} : LookedUp piece →
    t.entry? (dir ++ [piece]) = none →
      Followed t links dir [piece] (.vacant dir piece) [dir ++ [piece]]
  | into {links : Nat} {dir : Location} {piece : String} {rest : List String} {place : Place}
    {locs : List Location} : LookedUp piece → t.entry? (dir ++ [piece]) = some .directory →
      Followed t links (dir ++ [piece]) rest place locs →
      Followed t links dir (piece :: rest) place ((dir ++ [piece]) :: locs)
  | file {links : Nat} {dir : Location} {piece : String} {bytes : List UInt8} {executable : Bool} :
    LookedUp piece → t.entry? (dir ++ [piece]) = some (.file bytes executable) →
      Followed t links dir [piece] (.entry (dir ++ [piece]) (.file bytes executable))
        [dir ++ [piece]]
  | along {links : Nat} {dir : Location} {piece : String} {rest : List String} {place : Place}
    {locs : List Location} {target : String} : LookedUp piece →
      t.entry? (dir ++ [piece]) = some (.link target) →
      Followed t links (beginning dir target) (pieces target ++ rest) place locs →
      Followed t (links + 1) dir (piece :: rest) place ((dir ++ [piece]) :: locs)

variable {t t' : Tree} {links n : Nat} {dir : Location} {route : List String} {place place' : Place}
  {locs locs' : List Location}

theorem followed_of_walkWith (hleap : ∀ dir route place,
      t.walkLeap true links dir route = .ok place → ∃ fewer, links = fewer + 1 ∧
        t.Followed fewer dir route place (t.visitsLeap true links dir route)) :
    ∀ (route : List String) (dir : Location) (place : Place),
      t.walkWith true (t.walkLeap true links) dir route = .ok place →
      t.Followed links dir route place (t.visitsWith true (t.visitsLeap true links) dir route)
  | [], dir, place, h => by cases h; exact .done
  | piece :: rest, dir, place, h => by
    simp only [walkWith] at h
    simp only [visitsWith]
    split at h
    · rename_i hhere
      rw [if_pos hhere, hhere]
      exact .here (followed_of_walkWith hleap rest dir place h)
    rename_i hhere
    split at h
    · rename_i hup
      rw [if_neg hhere, if_pos hup, hup]
      exact .up (followed_of_walkWith hleap rest dir.dropLast place h)
    rename_i hup
    split at h
    · cases h
    rename_i hlong
    rw [if_neg hhere, if_neg hup, if_neg hlong]
    have hpiece : LookedUp piece := ⟨hhere, hup, by omega⟩
    rcases hentry : t.entry? (dir ++ [piece]) with _ | _ | ⟨bytes, executable⟩ | target <;>
      simp only [hentry] at h ⊢
    · split at h <;> cases h
      rename_i hrest
      rw [hrest]
      exact .free hpiece hentry
    · exact .into hpiece hentry (followed_of_walkWith hleap rest _ place h)
    · split at h <;> cases h
      rename_i hrest
      rw [hrest]
      exact .file hpiece hentry
    · simp only [Bool.true_eq_false, and_false, if_false] at h ⊢
      obtain ⟨fewer, rfl, hbehind⟩ := hleap _ _ _ h
      exact .along hpiece hentry hbehind

theorem followed_of_walk : ∀ {links : Nat} {dir : Location} {route : List String} {place : Place},
    t.walk true links dir route = .ok place →
      t.Followed links dir route place (t.visits true links dir route)
  | 0, dir, route, place, h => followed_of_walkWith (fun _ _ _ h => by cases h) route dir place h
  | links + 1, dir, route, place, h =>
    followed_of_walkWith (fun _ _ _ h => ⟨links, rfl, followed_of_walk h⟩) route dir place h

namespace Followed

theorem walk (h : t.Followed links dir route place locs) :
    t.walk true links dir route = .ok place := by
  induction h with
  | done => exact walk_nil t true _ _
  | here _ ih => rw [walk_here, ih]
  | up _ ih => rw [walk_up, ih]
  | free hpiece hentry => simp [walk_cons hpiece, hentry]
  | into hpiece hentry _ ih => simp only [walk_cons hpiece, hentry, ih]
  | file hpiece hentry => simp [walk_cons hpiece, hentry]
  | along hpiece hentry _ ih =>
    rw [walk_cons hpiece, hentry]
    simp only [Bool.true_eq_false, and_false, if_false]
    exact ih

theorem of_here {rest : List String} (h : t.Followed links dir ("." :: rest) place locs) :
    t.Followed links dir rest place locs := by
  generalize hroute : "." :: rest = route at h
  cases h with
  | done => cases hroute
  | here h => cases hroute; exact h
  | up h => exact absurd (List.cons.inj hroute).1 (by decide)
  | free hpiece => cases hroute; exact absurd rfl hpiece.notHere
  | into hpiece => cases hroute; exact absurd rfl hpiece.notHere
  | file hpiece => cases hroute; exact absurd rfl hpiece.notHere
  | along hpiece => cases hroute; exact absurd rfl hpiece.notHere

theorem of_up {rest : List String} (h : t.Followed links dir (".." :: rest) place locs) :
    t.Followed links dir.dropLast rest place locs := by
  generalize hroute : ".." :: rest = route at h
  cases h with
  | done => cases hroute
  | here h => exact absurd (List.cons.inj hroute).1 (by decide)
  | up h => cases hroute; exact h
  | free hpiece => cases hroute; exact absurd rfl hpiece.notUp
  | into hpiece => cases hroute; exact absurd rfl hpiece.notUp
  | file hpiece => cases hroute; exact absurd rfl hpiece.notUp
  | along hpiece => cases hroute; exact absurd rfl hpiece.notUp

/-- A piece that is looked up is followed as what stands there says. -/
theorem of_lookedUp {piece : String} {rest : List String} (hpiece : LookedUp piece)
    (h : t.Followed links dir (piece :: rest) place locs) :
    match t.entry? (dir ++ [piece]) with
    | none => rest = [] ∧ place = .vacant dir piece ∧ locs = [dir ++ [piece]]
    | some .directory => ∃ locs', locs = (dir ++ [piece]) :: locs' ∧
        t.Followed links (dir ++ [piece]) rest place locs'
    | some (.file bytes executable) => rest = [] ∧
        place = .entry (dir ++ [piece]) (.file bytes executable) ∧ locs = [dir ++ [piece]]
    | some (.link target) => ∃ fewer locs', links = fewer + 1 ∧ locs = (dir ++ [piece]) :: locs' ∧
        t.Followed fewer (beginning dir target) (pieces target ++ rest) place locs' := by
  generalize hroute : piece :: rest = route at h
  cases h with
  | done => cases hroute
  | here h => cases hroute; exact absurd rfl hpiece.notHere
  | up h => cases hroute; exact absurd rfl hpiece.notUp
  | free _ hentry => cases hroute; rw [hentry]; exact ⟨rfl, rfl, rfl⟩
  | into _ hentry h => cases hroute; rw [hentry]; exact ⟨_, rfl, h⟩
  | file _ hentry => cases hroute; rw [hentry]; exact ⟨rfl, rfl, rfl⟩
  | along _ hentry h => cases hroute; rw [hentry]; exact ⟨_, _, rfl, rfl, h⟩

/-- A route leads on from a link to where that points. -/
theorem of_link {piece target : String} {rest : List String} (hpiece : LookedUp piece)
    (h : t.Followed links dir (piece :: rest) place locs)
    (hlink : t.entry? (dir ++ [piece]) = some (.link target)) : ∃ fewer locs',
      t.Followed fewer (beginning dir target) (pieces target ++ rest) place locs' := by
  have hstep := h.of_lookedUp hpiece
  rw [hlink] at hstep
  obtain ⟨fewer, locs', -, -, hrest⟩ := hstep
  exact ⟨fewer, locs', hrest⟩

/-- A route leads on from what there is only. -/
theorem entry?_ne_none {piece : String} {rest : List String} (hpiece : LookedUp piece)
    (h : t.Followed links dir (piece :: rest) place locs) (hrest : rest ≠ []) :
    t.entry? (dir ++ [piece]) ≠ none := by
  intro hfree
  have hstep := h.of_lookedUp hpiece
  rw [hfree] at hstep
  exact hrest hstep.1

/-- However many links may be followed, a route comes to the same along the same locations. -/
theorem unique (h : t.Followed links dir route place locs) : ∀ {n place' locs'},
    t.Followed n dir route place' locs' → place' = place ∧ locs' = locs := by
  induction h with
  | done => intro n place' locs' h'; cases h'; exact ⟨rfl, rfl⟩
  | here _ ih => exact fun h' => ih h'.of_here
  | up _ ih => exact fun h' => ih h'.of_up
  | free hpiece hentry =>
    intro n place' locs' h'
    have hstep := h'.of_lookedUp hpiece
    rw [hentry] at hstep
    exact hstep.2
  | into hpiece hentry _ ih =>
    intro n place' locs' h'
    have hstep := h'.of_lookedUp hpiece
    rw [hentry] at hstep
    obtain ⟨locs', rfl, hrest⟩ := hstep
    exact ⟨(ih hrest).1, by rw [(ih hrest).2]⟩
  | file hpiece hentry =>
    intro n place' locs' h'
    have hstep := h'.of_lookedUp hpiece
    rw [hentry] at hstep
    exact hstep.2
  | along hpiece hentry _ ih =>
    intro n place' locs' h'
    have hstep := h'.of_lookedUp hpiece
    rw [hentry] at hstep
    obtain ⟨fewer, locs', -, rfl, hrest⟩ := hstep
    exact ⟨(ih hrest).1, by rw [(ih hrest).2]⟩

/-! ## Parts of a route -/

/-- The first part of a route is a way, and the rest is followed from where it ends. -/
theorem first (h : t.Followed links dir route place locs) : ∀ {front back : List String},
    route = front ++ back → back ≠ [] → ∃ d locs', t.Way links dir front d ∧
      t.Followed d.links d.dir back place locs' ∧ locs = d.trail ++ locs' := by
  induction h with
  | done =>
    intro front back hr hback
    exact absurd (List.append_eq_nil_iff.1 hr.symm).2 hback
  | here h ih =>
    intro front back hr hback
    rcases List.cons_eq_append_iff.1 hr with ⟨rfl, rfl⟩ | ⟨rest, rfl, hrest⟩
    · exact ⟨_, _, .done, .here h, rfl⟩
    · obtain ⟨d, locs', hway, hlast, heq⟩ := ih hrest hback
      exact ⟨d, locs', .here hway, hlast, heq⟩
  | up h ih =>
    intro front back hr hback
    rcases List.cons_eq_append_iff.1 hr with ⟨rfl, rfl⟩ | ⟨rest, rfl, hrest⟩
    · exact ⟨_, _, .done, .up h, rfl⟩
    · obtain ⟨d, locs', hway, hlast, heq⟩ := ih hrest hback
      exact ⟨d, locs', .up hway, hlast, heq⟩
  | free hpiece hentry =>
    intro front back hr hback
    rcases List.cons_eq_append_iff.1 hr with ⟨rfl, rfl⟩ | ⟨rest, rfl, hrest⟩
    · exact ⟨_, _, .done, .free hpiece hentry, rfl⟩
    · exact absurd (List.append_eq_nil_iff.1 hrest.symm).2 hback
  | into hpiece hentry h ih =>
    intro front back hr hback
    rcases List.cons_eq_append_iff.1 hr with ⟨rfl, rfl⟩ | ⟨rest, rfl, hrest⟩
    · exact ⟨_, _, .done, .into hpiece hentry h, rfl⟩
    · obtain ⟨d, locs', hway, hlast, heq⟩ := ih hrest hback
      exact ⟨_, locs', .into hpiece hentry hway, hlast, by rw [heq]; rfl⟩
  | file hpiece hentry =>
    intro front back hr hback
    rcases List.cons_eq_append_iff.1 hr with ⟨rfl, rfl⟩ | ⟨rest, rfl, hrest⟩
    · exact ⟨_, _, .done, .file hpiece hentry, rfl⟩
    · exact absurd (List.append_eq_nil_iff.1 hrest.symm).2 hback
  | along hpiece hentry h ih =>
    intro front back hr hback
    rcases List.cons_eq_append_iff.1 hr with ⟨rfl, rfl⟩ | ⟨rest, rfl, hrest⟩
    · exact ⟨_, _, .done, .along hpiece hentry h, rfl⟩
    · obtain ⟨d, locs', hway, hlast, heq⟩ :=
        ih (by rw [hrest, List.append_assoc] : _ = pieces _ ++ rest ++ back) hback
      exact ⟨_, locs', .along hpiece hentry hway, hlast, by rw [heq]; rfl⟩

/-- A way is followed, and what comes behind it. -/
theorem append {d : Descent} {back : List String} (hway : t.Way links dir route d) :
    t.Followed d.links d.dir back place locs →
      t.Followed links dir (route ++ back) place (d.trail ++ locs) := by
  induction hway with
  | done => exact id
  | here _ ih => exact fun h => .here (ih h)
  | up _ ih => exact fun h => .up (ih h)
  | into hpiece hentry _ ih => exact fun h => .into hpiece hentry (ih h)
  | along hpiece hentry _ ih =>
    intro h
    exact .along hpiece hentry (List.append_assoc _ _ _ ▸ ih h)

/-- A route that leads through a link goes on behind it. -/
theorem behind (h : t.Followed links dir route place locs) {loc : Location} (hloc : loc ∈ locs)
    {target : String} (hlink : t.entry? loc = some (.link target)) :
    ∃ fewer holder name rest locs', loc = holder ++ [name] ∧ locs'.length < locs.length ∧
      t.Followed fewer (beginning holder target) (pieces target ++ rest) place locs' := by
  induction h with
  | done => cases hloc
  | here _ ih => exact ih hloc
  | up _ ih => exact ih hloc
  | free _ hentry =>
    rw [List.mem_singleton.1 hloc, hentry] at hlink
    cases hlink
  | into _ hentry _ ih =>
    rcases List.mem_cons.1 hloc with rfl | hloc
    · rw [hentry] at hlink
      cases hlink
    · obtain ⟨fewer, holder, name, rest, locs', heq, hlength, hrest⟩ := ih hloc
      exact ⟨fewer, holder, name, rest, locs', heq, Nat.lt_succ_of_lt hlength, hrest⟩
  | file _ hentry =>
    rw [List.mem_singleton.1 hloc, hentry] at hlink
    cases hlink
  | along _ hentry h ih =>
    rcases List.mem_cons.1 hloc with rfl | hloc
    · rw [hentry] at hlink
      cases hlink
      exact ⟨_, _, _, _, _, rfl, Nat.lt_succ_self _, h⟩
    · obtain ⟨fewer, holder, name, rest, locs', heq, hlength, hrest⟩ := ih hloc
      exact ⟨fewer, holder, name, rest, locs', heq, Nat.lt_succ_of_lt hlength, hrest⟩

theorem of_way {d : Descent} (hway : t.Way links dir route d) :
    t.Followed links dir route (.entry d.dir .directory) d.trail := by
  simpa using append hway .done

/-- What is followed behind a link does not lead through that link again. -/
theorem not_mem_behind {holder : Location} {name target : String}
    (hlink : t.entry? (holder ++ [name]) = some (.link target))
    (h : t.Followed links (beginning holder target) (pieces target) place locs) :
    holder ++ [name] ∉ locs := by
  intro hloc
  obtain ⟨fewer, holder', name', rest, locs', heq, hshorter, hrest⟩ := h.behind hloc hlink
  rw [← (List.append_inj' heq rfl).1] at hrest
  -- behind the link the same pieces are followed again, along fewer locations
  cases rest with
  | nil =>
    rw [List.append_nil] at hrest
    rw [(h.unique hrest).2] at hshorter
    exact Nat.lt_irrefl _ hshorter
  | cons piece rest =>
    obtain ⟨d, last, hway, -, rfl⟩ := hrest.first rfl (by simp)
    rw [← (h.unique (of_way hway)).2, List.length_append] at hshorter
    omega

/-- A route that leads to a free name comes to it. -/
theorem vacant_of_mem (h : t.Followed links dir route place locs) {loc : Location} (hloc : loc ∈ locs)
    (hfree : t.entry? loc = none) : ∃ dir name, place = .vacant dir name := by
  induction h with
  | done => cases hloc
  | here _ ih => exact ih hloc
  | up _ ih => exact ih hloc
  | free => exact ⟨_, _, rfl⟩
  | into _ hentry _ ih =>
    rcases List.mem_cons.1 hloc with rfl | hloc
    · rw [hfree] at hentry
      cases hentry
    · exact ih hloc
  | file _ hentry =>
    rw [List.mem_singleton.1 hloc, hentry] at hfree
    cases hfree
  | along _ hentry _ ih =>
    rcases List.mem_cons.1 hloc with rfl | hloc
    · rw [hfree] at hentry
      cases hentry
    · exact ih hloc

/-! ## Changes -/

theorem congr (h : t.Followed links dir route place locs)
    (hsame : ∀ loc ∈ locs, t'.entry? loc = t.entry? loc) : t'.Followed links dir route place locs := by
  induction h with
  | done => exact .done
  | here _ ih => exact .here (ih hsame)
  | up _ ih => exact .up (ih hsame)
  | free hpiece hentry => exact .free hpiece ((hsame _ List.mem_cons_self).trans hentry)
  | into hpiece hentry _ ih =>
    exact .into hpiece ((hsame _ List.mem_cons_self).trans hentry)
      (ih fun loc hloc => hsame loc (List.mem_cons_of_mem _ hloc))
  | file hpiece hentry => exact .file hpiece ((hsame _ List.mem_cons_self).trans hentry)
  | along hpiece hentry _ ih =>
    exact .along hpiece ((hsame _ List.mem_cons_self).trans hentry)
      (ih fun loc hloc => hsame loc (List.mem_cons_of_mem _ hloc))

/-- A route to a directory leads through directories and links alone. -/
theorem entry?_of_directory {found : Location}
    (h : t.Followed links dir route (.entry found .directory) locs) {loc : Location} (hloc : loc ∈ locs) :
    t.entry? loc = some .directory ∨ ∃ target, t.entry? loc = some (.link target) := by
  generalize hplace : Place.entry found .directory = place at h
  induction h with
  | done => cases hloc
  | here _ ih => exact ih hloc hplace
  | up _ ih => exact ih hloc hplace
  | free => cases hplace
  | into _ hentry _ ih =>
    rcases List.mem_cons.1 hloc with rfl | hloc
    · exact .inl hentry
    · exact ih hloc hplace
  | file => cases hplace
  | along _ hentry _ ih =>
    rcases List.mem_cons.1 hloc with rfl | hloc
    · exact .inr ⟨_, hentry⟩
    · exact ih hloc hplace

/-- What stands where a file can be written. -/
theorem entry?_of_fileAt? (h : t.Followed links dir route place locs) {loc : Location}
    (hloc : place.fileAt? = some loc) :
    loc ≠ [] ∧ (t.entry? loc = none ∨ ∃ b x, t.entry? loc = some (.file b x)) := by
  induction h with
  | done => cases hloc
  | here _ ih => exact ih hloc
  | up _ ih => exact ih hloc
  | free _ hentry => cases hloc; exact ⟨by simp, .inl hentry⟩
  | into _ _ _ ih => exact ih hloc
  | file _ hentry => cases hloc; exact ⟨by simp, .inr ⟨_, _, hentry⟩⟩
  | along _ _ _ ih => exact ih hloc

/-- A name where a file can be written is followed no further. -/
theorem locs_of_fileAt? {piece : String} (hpiece : LookedUp piece)
    (h : t.Followed links dir [piece] place locs) (hloc : place.fileAt? = some (dir ++ [piece])) :
    locs = [dir ++ [piece]] := by
  have hstep := h.of_lookedUp hpiece
  rcases he : t.entry? (dir ++ [piece]) with _ | _ | ⟨b, x⟩ | target <;> rw [he] at hstep
  · exact hstep.2.2
  · obtain ⟨locs', rfl, hrest⟩ := hstep
    cases hrest
    cases hloc
  · exact hstep.2.2
  · rcases (h.entry?_of_fileAt? hloc).2 with hfree | ⟨b, x, hfree⟩ <;> rw [he] at hfree <;> cases hfree

/-- A file written through a path is what the path leads to. -/
theorem put (h : t.Followed links dir route place locs) {loc : Location}
    (hloc : place.fileAt? = some loc) (bytes : List UInt8) (executable : Bool) :
    (t.put loc (.file bytes executable)).Followed links dir route
      (.entry loc (.file bytes executable)) locs := by
  obtain ⟨hne, hfree⟩ := h.entry?_of_fileAt? hloc
  have hput := entry?_put t hne (.file bytes executable)
  -- directories and links on the way stand elsewhere
  have hother : ∀ l e, t.entry? l = some e → (e = .directory ∨ ∃ target, e = .link target) →
      entry? (t.put loc (.file bytes executable)) l = some e := by
    rintro l e he hkind
    have hl : l ≠ loc := by
      rintro rfl
      rcases hfree with hfree | ⟨b, x, hfree⟩ <;> rw [hfree] at he <;> cases he
      rcases hkind with hkind | ⟨target, hkind⟩ <;> cases hkind
    rw [hput, if_neg hl, he]
  induction h with
  | done => cases hloc
  | here _ ih => exact .here (ih hloc)
  | up _ ih => exact .up (ih hloc)
  | free hpiece _ => cases hloc; exact .file hpiece (by rw [hput, if_pos rfl])
  | into hpiece hentry _ ih => exact .into hpiece (hother _ _ hentry (.inl rfl)) (ih hloc)
  | file hpiece _ => cases hloc; exact .file hpiece (by rw [hput, if_pos rfl])
  | along hpiece hentry _ ih => exact .along hpiece (hother _ _ hentry (.inr ⟨_, rfl⟩)) (ih hloc)

/-- A way on which a link was put, and names may have become free, leads to that link if anywhere. -/
theorem meets {d : Descent} (hway : t.Way links dir route d) {loc : Location} (hloc : loc ∈ d.trail)
    {target : String} (hlink : t'.entry? loc = some (.link target))
    (hsame : ∀ l ∈ d.trail, l ≠ loc → t'.entry? l = t.entry? l ∨ t'.entry? l = none)
    {back : List String} (hback : back ≠ []) : ∀ {n locs},
    t'.Followed n dir (route ++ back) place locs → ∃ fewer holder piece rest locs',
      loc = holder ++ [piece] ∧ rest ≠ [] ∧
      t'.Followed fewer (beginning holder target) (pieces target ++ rest) place locs' := by
  induction hway with
  | done => cases hloc
  | here _ ih => exact fun h => ih hloc hsame h.of_here
  | up _ ih => exact fun h => ih hloc hsame h.of_up
  | @into links dir piece rest d hpiece hentry _ ih =>
    intro n locs h
    by_cases hl : dir ++ [piece] = loc
    · obtain ⟨fewer, locs', hrest⟩ := h.of_link hpiece (hl ▸ hlink)
      exact ⟨fewer, dir, piece, _, locs', hl.symm, by simp [hback], hrest⟩
    have hthere := (hsame _ List.mem_cons_self hl).resolve_right
      (h.entry?_ne_none hpiece (by simp [hback]))
    have hstep := h.of_lookedUp hpiece
    rw [hthere, hentry] at hstep
    obtain ⟨locs', -, hrest⟩ := hstep
    exact ih ((List.mem_cons.1 hloc).resolve_left (Ne.symm hl))
      (fun l hl' => hsame l (List.mem_cons_of_mem _ hl')) hrest
  | @along links dir piece rest d other hpiece hentry _ ih =>
    intro n locs h
    by_cases hl : dir ++ [piece] = loc
    · obtain ⟨fewer, locs', hrest⟩ := h.of_link hpiece (hl ▸ hlink)
      exact ⟨fewer, dir, piece, _, locs', hl.symm, by simp [hback], hrest⟩
    have hthere := (hsame _ List.mem_cons_self hl).resolve_right
      (h.entry?_ne_none hpiece (by simp [hback]))
    obtain ⟨fewer, locs', hrest⟩ := h.of_link hpiece (hthere.trans hentry)
    have hroute : t'.Followed fewer (beginning dir other) (pieces other ++ rest ++ back) place
        locs' := by
      rw [List.append_assoc]
      exact hrest
    exact ih ((List.mem_cons.1 hloc).resolve_left (Ne.symm hl))
      (fun l hl' => hsame l (List.mem_cons_of_mem _ hl')) hroute

end Followed

/-! ## Paths -/

variable {p : Path} {d : Descent} {name : String}

/-- A path to a directory still leads there where all directories and links are as they were. -/
theorem find_directory (h : t.find true p = .ok (dir, .directory)) (hhome : t'.home = t.home)
    (hsame : ∀ loc, t.entry? loc = some .directory ∨ (∃ target, t.entry? loc = some (.link target)) →
      t'.entry? loc = t.entry? loc) : t'.find true p = .ok (dir, .directory) := by
  unfold find at h ⊢
  split at h <;> cases h
  rename_i hplace
  have hwalkable := walkable_of_place hplace
  rw [place_eq hwalkable] at hplace ⊢
  have hfollowed := followed_of_walk hplace
  rw [hhome, (hfollowed.congr fun loc hloc => hsame loc (hfollowed.entry?_of_directory hloc)).walk]

/-- A path that leads to a name is followed along its way and from the name on. -/
theorem Reaches.followed (h : t.Reaches p d name) (hplace : t.place true p = .ok place) :
    ∃ locs, t.visitsOf true p = d.trail ++ locs ∧ t.Followed d.links d.dir [name] place locs := by
  obtain ⟨route, hroute, hway⟩ := h.way
  rw [place_eq h.walkable] at hplace
  have hall := followed_of_walk hplace
  unfold visitsOf
  rw [hroute] at hall ⊢
  obtain ⟨d', locs, hway', hlast, heq⟩ := hall.first rfl (by simp)
  obtain rfl : d' = d := Except.ok.inj ((descend_of_way hway').symm.trans (descend_of_way hway))
  exact ⟨locs, heq, hlast⟩

theorem Reaches.place_of_followed (h : t.Reaches p d name)
    (hlast : t.Followed d.links d.dir [name] place locs) : t.place true p = .ok place := by
  obtain ⟨route, hroute, hway⟩ := h.way
  rw [place_eq h.walkable, hroute]
  exact (Followed.append hway hlast).walk

/-- Discarding through a path that ends in a name leaves all as it is but for one entry of that name,
which is gone if it is not as it was. -/
theorem entry?_discard {route : List String} (hp : EndsIn p route name) (t : Tree) (l : Location) :
    entry? (t.discard p) l = t.entry? l ∨
      entry? (t.discard p) l = none ∧ ∃ dir, l = dir ++ [name] := by
  rcases discard_cases t p with ⟨-, hsame⟩ | ⟨loc, e, hloc, -, hfind, herase⟩
  · rw [hsame]
    exact .inl rfl
  rw [herase, entry?_erase t hloc]
  split
  · rename_i hl
    unfold find at hfind
    split at hfind <;> cases hfind
    rename_i hplace
    obtain ⟨d', hreach⟩ := reaches_of_place hp hplace
    rw [hreach.place (.inl rfl)] at hplace
    split at hplace <;> cases hplace
    exact .inr ⟨rfl, d'.dir, hl⟩
  · exact .inl rfl

theorem home_discard (t : Tree) (p : Path) : (t.discard p).home = t.home := by
  rcases discard_cases t p with ⟨-, hsame⟩ | ⟨loc, e, -, -, -, herase⟩
  · rw [hsame]
  · rw [herase]
    rfl

theorem Reaches.endsIn (h : t.Reaches p d name) : ∃ route, EndsIn p route name ∧
    t.Way linkLimit (beginning t.home p.text) route d := by
  obtain ⟨route, hroute, hway⟩ := h.way
  exact ⟨route, ⟨hroute, h.lookedUp.notHere, h.lookedUp.notUp⟩, hway⟩

/-- A file that is written is written where its path leads to. -/
theorem fileAt?_of_write {bytes : List UInt8} (hname : endsInName p = true)
    (hw : t.write p bytes = .ok t') : ∃ place loc executable, t.place true p = .ok place ∧
      place.fileAt? = some loc ∧ t' = t.put loc (.file bytes executable) := by
  unfold write at hw
  rw [if_neg (by simp [hname])] at hw
  rcases hplace : t.place true p with e | (⟨loc, _ | ⟨b, x⟩ | target⟩ | ⟨dir, name⟩) <;>
    rw [hplace] at hw <;> cases hw
  · exact ⟨_, loc, x, rfl, rfl, rfl⟩
  · exact ⟨_, dir ++ [name], false, rfl, rfl, rfl⟩

end Tree

end CoverageRun.Files
