/-
Everything a walk looks up. A walk comes to the same wherever these locations hold the same, so what
an entry put or erased does to a path is a question of whether the path visits its location. Erasing
makes no path lead anywhere that it did not lead before, and a file or a link that is discarded is
gone whatever its path.
-/
import CoverageRun.Proofs.Files.Operations

namespace CoverageRun.Files.Tree

/-! ## Visits -/

/-- The locations looked up on a walk. Where a link is followed, `leap` gives those behind it. -/
def visitsWith (t : Tree) (follow : Bool) (leap : Location → List String → List Location)
    (dir : Location) : List String → List Location
  | [] => []
  | name :: rest =>
    if name = "." then visitsWith t follow leap dir rest
    else if name = ".." then visitsWith t follow leap dir.dropLast rest
    else if 255 < name.utf8ByteSize then []
    else
      (dir ++ [name]) ::
        match t.entry? (dir ++ [name]) with
        | some .directory => visitsWith t follow leap (dir ++ [name]) rest
        | some (.link target) =>
          if rest = [] ∧ follow = false then [] else leap (beginning dir target) (pieces target ++ rest)
        | _ => []

/-- The locations looked up on a walk through no more than so many links. -/
def visits (t : Tree) (follow : Bool) : Nat → Location → List String → List Location
  | 0 => t.visitsWith follow fun _ _ => []
  | links + 1 => t.visitsWith follow (visits t follow links)

/-- The locations that a path leads through and to. -/
def visitsOf (t : Tree) (follow : Bool) (p : Path) : List Location :=
  t.visits follow linkLimit (beginning t.home p.text) (pieces p.text)

/-- What is looked up behind a link where a walk meets one and may follow so many. -/
def visitsLeap (t : Tree) (follow : Bool) : Nat → Location → List String → List Location
  | 0 => fun _ _ => []
  | links + 1 => t.visits follow links

variable {t t' : Tree} {follow : Bool}

/-! ## Walks depend on what they look up -/

theorem walkWith_congr {leap leap' : Location → List String → Except Fault Place}
    {see see' : Location → List String → List Location}
    (hleap : ∀ dir route, (∀ loc ∈ see dir route, t'.entry? loc = t.entry? loc) →
      leap' dir route = leap dir route ∧ see' dir route = see dir route) :
    ∀ (route : List String) (dir : Location),
      (∀ loc ∈ t.visitsWith follow see dir route, t'.entry? loc = t.entry? loc) →
      t'.walkWith follow leap' dir route = t.walkWith follow leap dir route ∧
        t'.visitsWith follow see' dir route = t.visitsWith follow see dir route
  | [], _, _ => ⟨rfl, rfl⟩
  | name :: rest, dir, h => by
    simp only [visitsWith] at h
    simp only [walkWith, visitsWith]
    split at h
    · rename_i hhere
      simpa only [if_pos hhere] using walkWith_congr hleap rest dir h
    rename_i hhere
    split at h
    · rename_i hup
      simpa only [if_neg hhere, if_pos hup] using walkWith_congr hleap rest dir.dropLast h
    rename_i hup
    split at h
    · rename_i hlong
      simp only [if_neg hhere, if_neg hup, if_pos hlong, and_self]
    rename_i hlong
    simp only [if_neg hhere, if_neg hup, if_neg hlong, h (dir ++ [name]) List.mem_cons_self]
    have hrest := fun loc hloc => h loc (List.mem_cons_of_mem _ hloc)
    rcases he : t.entry? (dir ++ [name]) with _ | _ | ⟨bytes, executable⟩ | target <;>
      simp only [he] at hrest ⊢
    · simp only [and_self]
    · obtain ⟨hwalk, hvisits⟩ := walkWith_congr hleap rest (dir ++ [name]) hrest
      exact ⟨hwalk, by rw [hvisits]⟩
    · simp only [and_self]
    · split at hrest
      · rename_i hend
        simp only [if_pos hend, and_self]
      · rename_i hend
        obtain ⟨hwalk, hvisits⟩ := hleap _ _ hrest
        simp only [if_neg hend, hwalk, hvisits, and_self]

/-- A walk comes to the same, and looks up the same, where that has not changed. -/
theorem walk_congr : ∀ (links : Nat) (dir : Location) (route : List String),
    (∀ loc ∈ t.visits follow links dir route, t'.entry? loc = t.entry? loc) →
    t'.walk follow links dir route = t.walk follow links dir route ∧
      t'.visits follow links dir route = t.visits follow links dir route
  | 0, dir, route => walkWith_congr (fun _ _ _ => ⟨rfl, rfl⟩) route dir
  | links + 1, dir, route => walkWith_congr (walk_congr links) route dir

/-- A path leads to the same place where nothing that it visits has changed. -/
theorem place_congr (hhome : t'.home = t.home) {p : Path}
    (h : ∀ loc ∈ t.visitsOf follow p, t'.entry? loc = t.entry? loc) :
    t'.place follow p = t.place follow p := by
  unfold place
  rw [hhome, (walk_congr linkLimit _ _ h).1]

/-! ## Free names -/

/-- What a walk comes to that meets a free name. -/
def Gone (r : Except Fault Place) : Prop :=
  r = .error .missing ∨ ∃ dir name, r = .ok (.vacant dir name)

theorem gone_walkWith {loc : Location} (hfree : t.entry? loc = none)
    {leap : Location → List String → Except Fault Place}
    {see : Location → List String → List Location}
    (hleap : ∀ dir route, loc ∈ see dir route → Gone (leap dir route)) :
    ∀ (route : List String) (dir : Location),
      loc ∈ t.visitsWith follow see dir route → Gone (t.walkWith follow leap dir route)
  | [], _, h => by cases h
  | name :: rest, dir, h => by
    simp only [visitsWith] at h
    simp only [walkWith]
    split at h
    · rename_i hhere
      simpa only [if_pos hhere] using gone_walkWith hfree hleap rest dir h
    rename_i hhere
    split at h
    · rename_i hup
      simpa only [if_neg hhere, if_pos hup] using gone_walkWith hfree hleap rest dir.dropLast h
    rename_i hup
    split at h
    · cases h
    rename_i hlong
    simp only [if_neg hhere, if_neg hup, if_neg hlong]
    rcases List.mem_cons.1 h with rfl | h
    · simp only [hfree]
      split
      · exact .inr ⟨dir, name, rfl⟩
      · exact .inl rfl
    rcases he : t.entry? (dir ++ [name]) with _ | _ | ⟨bytes, executable⟩ | target <;>
      simp only [he] at h ⊢
    · cases h
    · exact gone_walkWith hfree hleap rest (dir ++ [name]) h
    · cases h
    · split at h
      · cases h
      · rename_i hend
        simp only [if_neg hend]
        exact hleap _ _ h

theorem gone_walk {loc : Location} (hfree : t.entry? loc = none) :
    ∀ (links : Nat) (dir : Location) (route : List String),
      loc ∈ t.visits follow links dir route → Gone (t.walk follow links dir route)
  | 0, dir, route => gone_walkWith hfree (fun _ _ h => by cases h) route dir
  | links + 1, dir, route => gone_walkWith hfree (gone_walk hfree links) route dir

/-! ## Files that are named -/

/-- Whether a path names a file or a link. -/
def namesFile (t : Tree) (p : Path) : Bool :=
  match t.find false p with
  | .ok (_, .directory) => false
  | .ok _ => true
  | .error _ => false

theorem namesFile_eq_true {p : Path} : t.namesFile p = true ↔
    ∃ loc e, t.find false p = .ok (loc, e) ∧ e ≠ .directory := by
  unfold namesFile
  rcases t.find false p with fault | ⟨loc, _ | _ | _⟩ <;> simp

/-- A path that is not walked at all leads to the same whatever the tree. -/
theorem place_of_not_walkable {p : Path} (h : ¬ Walkable p) (t t' : Tree) (follow : Bool) :
    t'.place follow p = t.place follow p := by
  unfold place
  split
  · rfl
  rename_i hnul
  split
  · rfl
  rename_i hempty
  exact absurd ⟨by simpa using hnul, hempty⟩ h

/-- Where an entry is erased a path leads to what it led to before, or to nothing. -/
theorem find_erase {loc : Location} (hloc : loc ≠ []) (p : Path) :
    find (t.erase loc) follow p = t.find follow p ∨
      find (t.erase loc) follow p = .error .missing := by
  have hfree : entry? (t.erase loc) loc = none := by rw [entry?_erase t hloc, if_pos rfl]
  by_cases hwalkable : Walkable p
  case neg =>
    left
    unfold find
    rw [place_of_not_walkable hwalkable t (t.erase loc)]
  by_cases hvisits : loc ∈ visitsOf (t.erase loc) follow p
  · right
    unfold find
    rw [place_eq hwalkable]
    rcases gone_walk hfree _ _ _ hvisits with h | ⟨dir, name, h⟩ <;> rw [h]
  · left
    have hplace : t.place follow p = place (t.erase loc) follow p := by
      refine place_congr (home_erase t loc).symm fun l hl => ?_
      rw [entry?_erase t hloc, if_neg (ne_of_mem_of_not_mem hl hvisits)]
    unfold find
    rw [hplace]

theorem namesFile_of_erase {loc : Location} (hloc : loc ≠ []) {p : Path}
    (h : namesFile (t.erase loc) p = true) : t.namesFile p = true := by
  obtain ⟨l, e, hfind, he⟩ := namesFile_eq_true.1 h
  rcases find_erase hloc p with hsame | hmissing
  · exact namesFile_eq_true.2 ⟨l, e, hsame ▸ hfind, he⟩
  · rw [hmissing] at hfind
    cases hfind

/-! ## Discarding -/

theorem entry?_of_walkWith {loc : Location} {e : Entry} (he : e ≠ .directory)
    {leap : Location → List String → Except Fault Place}
    (hleap : ∀ dir route, leap dir route = .ok (.entry loc e) → t.entry? loc = some e) :
    ∀ (route : List String) (dir : Location),
      t.walkWith follow leap dir route = .ok (.entry loc e) → t.entry? loc = some e
  | [], dir, h => by
    cases h
    exact absurd rfl he
  | name :: rest, dir, h => by
    simp only [walkWith] at h
    split at h
    · exact entry?_of_walkWith he hleap rest dir h
    split at h
    · exact entry?_of_walkWith he hleap rest dir.dropLast h
    split at h
    · cases h
    rcases hentry : t.entry? (dir ++ [name]) with _ | _ | ⟨bytes, executable⟩ | target <;>
      simp only [hentry] at h
    · split at h <;> cases h
    · exact entry?_of_walkWith he hleap rest (dir ++ [name]) h
    · split at h
      · cases h; exact hentry
      · cases h
    · split at h
      · cases h; exact hentry
      · exact hleap _ _ h

theorem entry?_of_walk {loc : Location} {e : Entry} (he : e ≠ .directory) :
    ∀ (links : Nat) (dir : Location) (route : List String),
      t.walk follow links dir route = .ok (.entry loc e) → t.entry? loc = some e
  | 0, dir, route => entry?_of_walkWith he (fun _ _ h => by cases h) route dir
  | links + 1, dir, route => entry?_of_walkWith he (entry?_of_walk he links) route dir

/-- A file or a link that a path leads to stands where it says. -/
theorem entry?_of_find {p : Path} {loc : Location} {e : Entry} (he : e ≠ .directory)
    (h : t.find follow p = .ok (loc, e)) : t.entry? loc = some e := by
  unfold find at h
  split at h <;> cases h
  rename_i hplace
  rw [place_eq (walkable_of_place hplace)] at hplace
  exact entry?_of_walk he _ _ _ hplace

/-- What is discarded is the file or the link a path names; where there is none nothing is. -/
theorem discard_cases (t : Tree) (p : Path) :
    (t.namesFile p = false ∧ t.discard p = t) ∨
    ∃ loc e, loc ≠ [] ∧ e ≠ .directory ∧ t.find false p = .ok (loc, e) ∧
      t.discard p = t.erase loc := by
  unfold namesFile discard removeFile
  rcases hfind : t.find false p with fault | ⟨loc, e⟩
  · exact .inl ⟨rfl, rfl⟩
  by_cases he : e = .directory
  · subst he
    exact .inl ⟨rfl, rfl⟩
  have hentry := entry?_of_find he hfind
  have hloc : loc ≠ [] := by
    rintro rfl
    exact he (Option.some.inj hentry).symm
  refine .inr ⟨loc, e, hloc, he, rfl, ?_⟩
  cases e with
  | directory => exact absurd rfl he
  | file bytes executable => rfl
  | link target => rfl

/-- A path names no file after one was discarded that it did not name before. -/
theorem namesFile_of_discard {p q : Path} (h : (t.discard q).namesFile p = true) :
    t.namesFile p = true := by
  rcases discard_cases t q with ⟨-, hsame⟩ | ⟨loc, e, hloc, -, -, herase⟩
  · rwa [hsame] at h
  · rw [herase] at h
    exact namesFile_of_erase hloc h

/-- A path whose file or link was discarded names none. -/
theorem namesFile_discard (t : Tree) (p : Path) : (t.discard p).namesFile p = false := by
  rcases discard_cases t p with ⟨hnone, hsame⟩ | ⟨loc, e, hloc, he, hfind, herase⟩
  · rw [hsame, hnone]
  rw [herase]
  by_contra hnames
  obtain ⟨l, e', hfind', he'⟩ := namesFile_eq_true.1 (Bool.of_not_eq_false hnames)
  rcases find_erase hloc p with hsame | hmissing
  · rw [hfind', hfind] at hsame
    cases hsame
    have hentry := entry?_of_find he hfind'
    rw [entry?_erase t hloc, if_pos rfl] at hentry
    cases hentry
  · rw [hfind'] at hmissing
    cases hmissing

end CoverageRun.Files.Tree
