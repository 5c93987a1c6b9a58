/-
Walking a path up to its last piece: the directory it comes to, how many links may still be
followed, and the locations it leads through. All of these are directories and links; so a change
at any other location leaves the way as it is, and a file put at one of them blocks it.
-/
import CoverageRun.Files.Operations
import CoverageRun.Proofs.Files.Tree
import CoverageRun.Proofs.Text.Lines

namespace CoverageRun.Files

/-! ## The way to a directory -/

/-- A piece of a path that is looked up where it is met. -/
structure LookedUp (piece : String) : Prop where
  notHere : piece ≠ "."
  notUp : piece ≠ ".."
  short : piece.utf8ByteSize ≤ 255

/-- Where a way ends: the directory, the links that may still be followed, and the locations that the
way leads through. -/
structure Descent where
  dir : Location
  links : Nat
  trail : List Location
  deriving DecidableEq, Repr

/-- A way that leads through one location more before it goes on. -/
def Descent.through (loc : Location) (d : Descent) : Descent := { d with trail := loc :: d.trail }

namespace Tree

/-- The way along pieces of a path all of which must lead to directories. Where a link is met, `leap`
goes on behind it. -/
def descendWith (t : Tree) (links : Nat) (leap : Location → List String → Except Fault Descent)
    (dir : Location) : List String → Except Fault Descent
  | [] => .ok ⟨dir, links, []⟩
  | name :: rest =>
    if name = "." then descendWith t links leap dir rest
    else if name = ".." then descendWith t links leap dir.dropLast rest
    else if 255 < name.utf8ByteSize then .error .nameTooLong
    else
      match t.entry? (dir ++ [name]) with
      | none => .error .missing
      | some .directory =>
        (descendWith t links leap (dir ++ [name]) rest).map (.through (dir ++ [name]))
      | some (.file _ _) => .error .notDirectory
      | some (.link target) =>
        (leap (beginning dir target) (pieces target ++ rest)).map (.through (dir ++ [name]))

/-- The way along pieces of a path, through no more than so many links. -/
def descend (t : Tree) : Nat → Location → List String → Except Fault Descent
  | 0 => t.descendWith 0 fun _ _ => .error .tooManyLinks
  | links + 1 => t.descendWith (links + 1) (descend t links)

/-- What goes on behind a link where a walk meets one and may follow so many. -/
def walkLeap (t : Tree) (follow : Bool) : Nat → Location → List String → Except Fault Place
  | 0 => fun _ _ => .error .tooManyLinks
  | links + 1 => t.walk follow links

theorem walk_eq (t : Tree) (follow : Bool) (links : Nat) :
    t.walk follow links = t.walkWith follow (t.walkLeap follow links) := by
  cases links <;> rfl

theorem walk_nil (t : Tree) (follow : Bool) (links : Nat) (dir : Location) :
    t.walk follow links dir [] = .ok (.entry dir .directory) := by
  rw [walk_eq]
  rfl

theorem walk_here (t : Tree) (follow : Bool) (links : Nat) (dir : Location) (rest : List String) :
    t.walk follow links dir ("." :: rest) = t.walk follow links dir rest := by
  rw [walk_eq]
  rfl

theorem walk_up (t : Tree) (follow : Bool) (links : Nat) (dir : Location) (rest : List String) :
    t.walk follow links dir (".." :: rest) = t.walk follow links dir.dropLast rest := by
  rw [walk_eq]
  rfl

/-- A step of a walk that looks a name up. -/
theorem walk_cons {piece : String} (h : LookedUp piece) (t : Tree) (follow : Bool) (links : Nat)
    (dir : Location) (rest : List String) :
    t.walk follow links dir (piece :: rest) =
      match t.entry? (dir ++ [piece]) with
      | none => if rest = [] then .ok (.vacant dir piece) else .error .missing
      | some .directory => t.walk follow links (dir ++ [piece]) rest
      | some (.file bytes executable) =>
        if rest = [] then .ok (.entry (dir ++ [piece]) (.file bytes executable))
        else .error .notDirectory
      | some (.link target) =>
        if rest = [] ∧ follow = false then .ok (.entry (dir ++ [piece]) (.link target))
        else t.walkLeap follow links (beginning dir target) (pieces target ++ rest) := by
  rcases he : t.entry? (dir ++ [piece]) with _ | _ | ⟨bytes, executable⟩ | target <;>
    simp [walk_eq, walkWith, h.notHere, h.notUp, Nat.not_lt.2 h.short, he]

/-- A walk goes its way and then makes one step more. -/
theorem walkWith_snoc {t : Tree} {follow : Bool} {links : Nat} {name : String}
    {leap : Location → List String → Except Fault Place}
    {leap' : Location → List String → Except Fault Descent}
    (hwalk : t.walk follow links = t.walkWith follow leap)
    (hleap : ∀ dir route, leap dir (route ++ [name]) =
      (leap' dir route).bind fun d => t.walk follow d.links d.dir [name]) :
    ∀ (route : List String) (dir : Location), t.walkWith follow leap dir (route ++ [name]) =
      (t.descendWith links leap' dir route).bind fun d => t.walk follow d.links d.dir [name]
  | [], dir => by
    simp only [List.nil_append, descendWith, Except.bind, hwalk]
  | piece :: rest, dir => by
    -- the last name is still to come, so no piece before it is the end of the path
    have hrest : rest ++ [name] ≠ [] := by simp
    have hmap : ∀ (r : Except Fault Descent) (loc : Location),
        (r.map (Descent.through loc)).bind (fun d => t.walk follow d.links d.dir [name]) =
          r.bind fun d => t.walk follow d.links d.dir [name] := by
      intro r loc
      cases r <;> rfl
    simp only [List.cons_append, walkWith, descendWith]
    split
    · exact walkWith_snoc hwalk hleap rest dir
    split
    · exact walkWith_snoc hwalk hleap rest dir.dropLast
    split
    · rfl
    rcases t.entry? (dir ++ [piece]) with _ | _ | ⟨bytes, executable⟩ | target
    · simp [Except.bind]
    · simp only [hmap]
      exact walkWith_snoc hwalk hleap rest (dir ++ [piece])
    · simp [Except.bind]
    · simp only [hrest, false_and, if_false, hmap, ← List.append_assoc]
      exact hleap _ _

theorem walk_snoc (t : Tree) (follow : Bool) (name : String) :
    ∀ (links : Nat) (dir : Location) (route : List String),
      t.walk follow links dir (route ++ [name]) =
        (t.descend links dir route).bind fun d => t.walk follow d.links d.dir [name]
  | 0, dir, route => walkWith_snoc rfl (fun _ _ => rfl) route dir
  | links + 1, dir, route => walkWith_snoc rfl (walk_snoc t follow name links) route dir

/-! ## Ways step by step -/

/-- What goes on behind a link that is met where so many links may still be followed. -/
def leap (t : Tree) : Nat → Location → List String → Except Fault Descent
  | 0 => fun _ _ => .error .tooManyLinks
  | links + 1 => t.descend links

theorem descend_eq (t : Tree) (links : Nat) : t.descend links = t.descendWith links (t.leap links) := by
  cases links <;> rfl

theorem descend_here (t : Tree) (links : Nat) (dir : Location) (rest : List String) :
    t.descend links dir ("." :: rest) = t.descend links dir rest := by
  rw [descend_eq]
  rfl

theorem descend_up (t : Tree) (links : Nat) (dir : Location) (rest : List String) :
    t.descend links dir (".." :: rest) = t.descend links dir.dropLast rest := by
  rw [descend_eq]
  rfl

/-- A step of a way that looks a name up. -/
theorem descend_cons {piece : String} (h : LookedUp piece) (t : Tree) (links : Nat) (dir : Location)
    (rest : List String) :
    t.descend links dir (piece :: rest) =
      match t.entry? (dir ++ [piece]) with
      | none => .error .missing
      | some .directory =>
        (t.descend links (dir ++ [piece]) rest).map (.through (dir ++ [piece]))
      | some (.file _ _) => .error .notDirectory
      | some (.link target) =>
        (t.leap links (beginning dir target) (pieces target ++ rest)).map
          (.through (dir ++ [piece])) := by
  rw [descend_eq, descendWith, if_neg h.notHere, if_neg h.notUp, if_neg (Nat.not_lt.2 h.short)]

/-- A way, step by step: each piece leads to a directory, at once or behind a link. -/
inductive Way (t : Tree) : Nat → Location → List String → Descent → Prop
  | done {links : Nat} {dir : Location} : Way t links dir [] ⟨dir, links, []⟩
  | here {links : Nat} {dir : Location} {rest : List String} {d : Descent} :
    Way t links dir rest d → Way t links dir ("." :: rest) d
  | up {links : Nat} {dir : Location} {rest : List String} {d : Descent} :
    Way t links dir.dropLast rest d → Way t links dir (".." :: rest) d
  | into {links : Nat} {dir : Location} {piece : String} {rest : List String} {d : Descent} :
    LookedUp piece → t.entry? (dir ++ [piece]) = some .directory →
      Way t links (dir ++ [piece]) rest d →
      Way t links dir (piece :: rest) (d.through (dir ++ [piece]))
  | along {links : Nat} {dir : Location} {piece : String} {rest : List String} {d : Descent}
    {target : String} : LookedUp piece → t.entry? (dir ++ [piece]) = some (.link target) →
      Way t links (beginning dir target) (pieces target ++ rest) d →
      Way t (links + 1) dir (piece :: rest) (d.through (dir ++ [piece]))

variable {t t' : Tree} {links : Nat} {dir : Location} {route : List String} {d : Descent}

theorem way_of_descendWith (hleap : ∀ dir route d, t.leap links dir route = .ok d →
      ∃ fewer, links = fewer + 1 ∧ t.Way fewer dir route d) :
    ∀ (route : List String) (dir : Location) (d : Descent),
      t.descendWith links (t.leap links) dir route = .ok d → t.Way links dir route d
  | [], dir, d, h => by cases h; exact .done
  | piece :: rest, dir, d, h => by
    have hthrough : ∀ {r : Except Fault Descent} {loc : Location}, r.map (.through loc) = .ok d →
        ∃ d', r = .ok d' ∧ d = d'.through loc := by
      intro r loc hr
      cases r with
      | error e => cases hr
      | ok d' => cases hr; exact ⟨d', rfl, rfl⟩
    simp only [descendWith] at h
    split at h
    · rename_i hhere; exact hhere ▸ .here (way_of_descendWith hleap rest dir d h)
    split at h
    · rename_i hup; exact hup ▸ .up (way_of_descendWith hleap rest dir.dropLast d h)
    split at h
    · cases h
    rename_i hhere hup hlong
    have hpiece : LookedUp piece := ⟨hhere, hup, by omega⟩
    split at h
    · cases h
    · rename_i hentry
      obtain ⟨d', hd', rfl⟩ := hthrough h
      exact .into hpiece hentry (way_of_descendWith hleap rest _ d' hd')
    · cases h
    · rename_i target hentry
      obtain ⟨d', hd', rfl⟩ := hthrough h
      obtain ⟨fewer, rfl, hway⟩ := hleap _ _ d' hd'
      exact .along hpiece hentry hway

theorem way_of_descend {t : Tree} : ∀ {links : Nat} {dir : Location} {route : List String}
    {d : Descent}, t.descend links dir route = .ok d → t.Way links dir route d
  | 0, dir, route, d, h => way_of_descendWith (fun _ _ _ h => by cases h) route dir d h
  | links + 1, dir, route, d, h =>
    way_of_descendWith (fun _ _ _ h => ⟨links, rfl, way_of_descend h⟩) route dir d h

theorem descend_of_way (h : t.Way links dir route d) : t.descend links dir route = .ok d := by
  induction h with
  | done => rw [descend_eq]; rfl
  | here _ ih => rw [descend_here, ih]
  | up _ ih => rw [descend_up, ih]
  | into hpiece hentry _ ih =>
    rw [descend_cons hpiece, hentry]
    simp only [ih]
    rfl
  | along hpiece hentry _ ih =>
    rw [descend_cons hpiece, hentry]
    simp only [leap, ih]
    rfl

/-- A way leads through directories and links only. -/
theorem Way.entry?_trail (h : t.Way links dir route d) : ∀ loc ∈ d.trail,
      t.entry? loc = some .directory ∨ ∃ target, t.entry? loc = some (.link target) := by
  induction h with
  | done => simp
  | here _ ih => exact ih
  | up _ ih => exact ih
  | into _ hentry _ ih =>
    intro loc hloc
    rcases List.mem_cons.1 hloc with rfl | hloc
    · exact .inl hentry
    · exact ih loc hloc
  | along _ hentry _ ih =>
    intro loc hloc
    rcases List.mem_cons.1 hloc with rfl | hloc
    · exact .inr ⟨_, hentry⟩
    · exact ih loc hloc

theorem Way.not_mem_trail (h : t.Way links dir route d) {loc : Location}
    (hfree : t.entry? loc = none ∨ ∃ bytes executable, t.entry? loc = some (.file bytes executable)) :
    loc ∉ d.trail := by
  intro hloc
  rcases hfree with hfree | ⟨bytes, executable, hfree⟩ <;>
    rcases h.entry?_trail loc hloc with hdir | ⟨target, hlink⟩ <;> simp_all

/-- Whoever goes a way, with however many links still to follow, comes to a directory if anywhere. -/
theorem Way.walk_eq_ok (h : t.Way links dir route d) : ∀ {n : Nat} {place : Place},
      t.walk true n dir route = .ok place → place = .entry d.dir .directory := by
  induction h with
  | done =>
    intro n place hw
    rw [walk_nil] at hw
    cases hw
    rfl
  | here _ ih =>
    intro n place hw
    exact ih (by rwa [walk_here] at hw)
  | up _ ih =>
    intro n place hw
    exact ih (by rwa [walk_up] at hw)
  | into hpiece hentry _ ih =>
    intro n place hw
    rw [walk_cons hpiece, hentry] at hw
    exact ih hw
  | along hpiece hentry _ ih =>
    intro n place hw
    rw [walk_cons hpiece, hentry] at hw
    simp only [Bool.true_eq_false, and_false, if_false] at hw
    cases n with
    | zero => cases hw
    | succ n => exact ih hw

/-- The first part of a way is a way. -/
theorem Way.first (h : t.Way links dir route d) : ∀ {front back : List String}, route = front ++ back →
      ∃ d', t.Way links dir front d' := by
  induction h with
  | done =>
    intro front back hr
    rw [(List.append_eq_nil_iff.1 hr.symm).1]
    exact ⟨_, .done⟩
  | here _ ih =>
    intro front back hr
    rcases List.cons_eq_append_iff.1 hr with ⟨rfl, -⟩ | ⟨rest, rfl, hrest⟩
    · exact ⟨_, .done⟩
    · obtain ⟨d', h'⟩ := ih hrest
      exact ⟨d', .here h'⟩
  | up _ ih =>
    intro front back hr
    rcases List.cons_eq_append_iff.1 hr with ⟨rfl, -⟩ | ⟨rest, rfl, hrest⟩
    · exact ⟨_, .done⟩
    · obtain ⟨d', h'⟩ := ih hrest
      exact ⟨d', .up h'⟩
  | into hpiece hentry _ ih =>
    intro front back hr
    rcases List.cons_eq_append_iff.1 hr with ⟨rfl, -⟩ | ⟨rest, rfl, hrest⟩
    · exact ⟨_, .done⟩
    · obtain ⟨d', h'⟩ := ih hrest
      exact ⟨_, .into hpiece hentry h'⟩
  | @along links dir piece rest' d target hpiece hentry _ ih =>
    intro front back hr
    rcases List.cons_eq_append_iff.1 hr with ⟨rfl, -⟩ | ⟨rest, rfl, hrest⟩
    · exact ⟨_, .done⟩
    · have hroute : pieces target ++ rest' = pieces target ++ rest ++ back := by
        rw [hrest, List.append_assoc]
      obtain ⟨d', h'⟩ := ih hroute
      exact ⟨_, .along hpiece hentry h'⟩

/-- A link that a way leads through is itself the beginning of a way. -/
theorem Way.behind (h : t.Way links dir route d) {loc : Location} (hloc : loc ∈ d.trail)
    {target : String} (hlink : t.entry? loc = some (.link target)) : ∃ fewer holder name d',
      loc = holder ++ [name] ∧ t.Way fewer (beginning holder target) (pieces target) d' := by
  induction h with
  | done => cases hloc
  | here _ ih => exact ih hloc
  | up _ ih => exact ih hloc
  | into _ hentry _ ih =>
    rcases List.mem_cons.1 hloc with rfl | hloc
    · rw [hentry] at hlink
      cases hlink
    · exact ih hloc
  | along _ hentry hway ih =>
    rcases List.mem_cons.1 hloc with rfl | hloc
    · rw [hentry] at hlink
      cases hlink
      obtain ⟨d', h'⟩ := hway.first rfl
      exact ⟨_, _, _, d', rfl, h'⟩
    · exact ih hloc

/-- A way is the same where nothing has changed on it. -/
theorem Way.congr (h : t.Way links dir route d)
    (hsame : ∀ loc ∈ d.trail, t'.entry? loc = t.entry? loc) : t'.Way links dir route d := by
  induction h with
  | done => exact .done
  | here _ ih => exact .here (ih hsame)
  | up _ ih => exact .up (ih hsame)
  | into hpiece hentry _ ih =>
    exact .into hpiece ((hsame _ List.mem_cons_self).trans hentry)
      (ih fun loc hloc => hsame loc (List.mem_cons_of_mem _ hloc))
  | along hpiece hentry _ ih =>
    exact .along hpiece ((hsame _ List.mem_cons_self).trans hentry)
      (ih fun loc hloc => hsame loc (List.mem_cons_of_mem _ hloc))

/-- A file put on a way blocks it. -/
theorem Way.blocked (h : t.Way links dir route d) {loc : Location} (hloc : loc ∈ d.trail)
    {bytes : List UInt8} {executable : Bool}
    (hfile : t'.entry? loc = some (.file bytes executable))
    (hsame : ∀ l ∈ d.trail, l ≠ loc → t'.entry? l = t.entry? l) :
    t'.descend links dir route = .error .notDirectory := by
  -- the way is as it was up to the first place where the file is met
  induction h with
  | done => cases hloc
  | here _ ih => rw [descend_here, ih hloc hsame]
  | up _ ih => rw [descend_up, ih hloc hsame]
  | @into links dir piece rest d hpiece hentry _ ih =>
    rw [descend_cons hpiece]
    by_cases hl : dir ++ [piece] = loc
    · rw [hl, hfile]
    have hrest := ih ((List.mem_cons.1 hloc).resolve_left (Ne.symm hl))
      fun l hl' => hsame l (List.mem_cons_of_mem _ hl')
    rw [hsame _ List.mem_cons_self hl, hentry]
    simp only [hrest]
    rfl
  | @along links dir piece rest d target hpiece hentry _ ih =>
    rw [descend_cons hpiece]
    by_cases hl : dir ++ [piece] = loc
    · rw [hl, hfile]
    have hrest := ih ((List.mem_cons.1 hloc).resolve_left (Ne.symm hl))
      fun l hl' => hsame l (List.mem_cons_of_mem _ hl')
    rw [hsame _ List.mem_cons_self hl, hentry]
    simp only [leap, hrest]
    rfl

end Tree

end CoverageRun.Files
