/-
Files and links that paths name, in a tree that loses entries. A path goes on naming what it named
as long as that stands there and nothing is lost on the way to it, and it never comes to name
something new.
-/
import CoverageRun.Proofs.Files.Following

namespace CoverageRun.Files.Tree

variable {t t' : Tree} {p : Path} {loc : Location} {d : Descent} {name : String}

/-! ## What a path names -/

/-- The location of the file or the link that a path names. -/
def named? (t : Tree) (p : Path) : Option Location :=
  match t.find false p with
  | .ok (_, .directory) => none
  | .ok (loc, _) => some loc
  | .error _ => none

/-- The locations that a path leads through before its last piece. -/
def trailOf (t : Tree) (p : Path) : List Location :=
  match t.descend linkLimit (beginning t.home p.text) (pieces p.text).dropLast with
  | .ok d => d.trail
  | .error _ => []

theorem named?_eq_some : t.named? p = some loc ↔
    ∃ e, t.find false p = .ok (loc, e) ∧ e ≠ .directory := by
  unfold named?
  rcases t.find false p with fault | ⟨l, _ | _ | _⟩ <;> simp

/-- A walk that comes to a place has gone its way and made one step more. -/
theorem exists_of_walk_snoc {follow : Bool} {links : Nat} {dir : Location} {route : List String}
    {place : Place} (h : t.walk follow links dir (route ++ [name]) = .ok place) :
    ∃ d, t.descend links dir route = .ok d ∧ t.walk follow d.links d.dir [name] = .ok place := by
  rw [walk_snoc] at h
  cases hd : t.descend links dir route with
  | error e => rw [hd] at h; cases h
  | ok d => rw [hd] at h; exact ⟨d, rfl, h⟩

/-- A file or a link is named by a path whose last piece is its name. -/
theorem reaches_of_find {e : Entry} (he : e ≠ .directory) (h : t.find false p = .ok (loc, e)) :
    ∃ d name, t.Reaches p d name ∧ loc = d.dir ++ [name] := by
  unfold find at h
  split at h <;> cases h
  rename_i hplace
  have hwalk := hplace
  rw [place_eq (walkable_of_place hplace)] at hwalk
  rcases List.eq_nil_or_concat' (pieces p.text) with hnil | ⟨route, last, hroute⟩
  · rw [hnil, walk_nil] at hwalk
    cases hwalk
    exact absurd rfl he
  have hends : EndsIn p route last := by
    rw [hroute] at hwalk
    obtain ⟨d, -, hlast⟩ := exists_of_walk_snoc hwalk
    -- a dot at the end leads to a directory
    refine ⟨hroute, ?_, ?_⟩
    · rintro rfl
      rw [walk_here, walk_nil] at hlast
      cases hlast
      exact he rfl
    · rintro rfl
      rw [walk_up, walk_nil] at hlast
      cases hlast
      exact he rfl
  obtain ⟨d, hreaches⟩ := reaches_of_place hends hplace
  refine ⟨d, last, hreaches, ?_⟩
  rw [hreaches.place (.inl rfl)] at hplace
  split at hplace <;> cases hplace
  rfl

theorem Reaches.trailOf (h : t.Reaches p d name) : t.trailOf p = d.trail := by
  obtain ⟨route, hroute, hway⟩ := h.way
  unfold Tree.trailOf
  rw [hroute, List.dropLast_concat, descend_of_way hway]

theorem Reaches.named?_eq_some (h : t.Reaches p d name) :
    t.named? p = some loc ↔ loc = d.dir ++ [name] ∧ ∃ e, t.entry? loc = some e ∧ e ≠ .directory := by
  rw [Tree.named?_eq_some, h.find (.inl rfl)]
  constructor
  · rintro ⟨e, hfind, he⟩
    split at hfind <;> cases hfind
    rename_i hentry
    exact ⟨rfl, e, hentry, he⟩
  · rintro ⟨rfl, e, hentry, he⟩
    rw [hentry]
    exact ⟨e, rfl, he⟩

/-- What a path names stands there, is no directory, and is reached along the path's trail. -/
theorem exists_of_named? (h : t.named? p = some loc) :
    ∃ d name e, t.Reaches p d name ∧ loc = d.dir ++ [name] ∧ t.trailOf p = d.trail ∧
      t.entry? loc = some e ∧ e ≠ .directory := by
  obtain ⟨e, hfind, he⟩ := Tree.named?_eq_some.1 h
  obtain ⟨d, name, hreaches, hloc⟩ := reaches_of_find he hfind
  exact ⟨d, name, e, hreaches, hloc, hreaches.trailOf, entry?_of_find he hfind, he⟩

theorem ne_nil_of_named? (h : t.named? p = some loc) : loc ≠ [] := by
  obtain ⟨d, name, e, -, rfl, -⟩ := exists_of_named? h
  simp

/-- A path's trail leads through directories and links. -/
theorem entry?_of_mem_trailOf (h : loc ∈ t.trailOf p) :
    t.entry? loc = some .directory ∨ ∃ target, t.entry? loc = some (.link target) := by
  unfold trailOf at h
  split at h
  · rename_i d hd
    exact (way_of_descend hd).entry?_trail loc h
  · cases h

/-! ## Losing entries -/

/-- A path names what it named where that and all on the way to it are as they were. -/
theorem named?_congr (h : t.named? p = some loc) (hhome : t'.home = t.home)
    (htrail : ∀ l ∈ t.trailOf p, t'.entry? l = t.entry? l) (hloc : t'.entry? loc = t.entry? loc) :
    t'.named? p = some loc := by
  obtain ⟨d, name, e, hreaches, hdir, htrailOf, hentry, he⟩ := exists_of_named? h
  have hreaches' : t'.Reaches p d name := hreaches.congr hhome (htrailOf ▸ htrail)
  exact hreaches'.named?_eq_some.2 ⟨hdir, e, hloc.trans hentry, he⟩

/-- A tree that has lost entries of another and is the same otherwise. -/
structure LossOf (t' t : Tree) : Prop where
  home : t'.home = t.home
  entry : ∀ loc, t'.entry? loc = t.entry? loc ∨ t'.entry? loc = none

/-- Where entries are lost no path comes to name something new. -/
theorem LossOf.named? (hloss : t'.LossOf t) (h : t'.named? p = some loc) : t.named? p = some loc := by
  have hkept : ∀ {l e}, t'.entry? l = some e → t.entry? l = t'.entry? l := by
    intro l e hl
    rcases hloss.entry l with hsame | hnone
    · exact hsame.symm
    · rw [hnone] at hl
      cases hl
  obtain ⟨d, name, e, -, -, -, hentry, -⟩ := exists_of_named? h
  refine named?_congr h hloss.home.symm (fun l hl => ?_) (hkept hentry)
  rcases entry?_of_mem_trailOf hl with hdir | ⟨target, hlink⟩
  · exact hkept hdir
  · exact hkept hlink

/-- What is discarded is what the path names. -/
theorem discard_eq (t : Tree) (p : Path) :
    t.discard p = match t.named? p with
      | some loc => t.erase loc
      | none => t := by
  unfold discard removeFile named?
  rcases t.find false p with fault | ⟨loc, _ | _ | _⟩ <;> rfl

end CoverageRun.Files.Tree
