/-
What file operations do at paths that end in a name: such a path leads to one location in the
directory its way ends in, and an operation that succeeds changes that location only.
-/
import CoverageRun.Proofs.Files.Descent
import CoverageRun.Proofs.Path

namespace CoverageRun.Files

open Text

/-! ## Paths that end in a name -/

theorem pieces_eq {text : String} {init : List (List Char)} {last : List Char}
    (h : split '/' text.toList = init ++ [last]) (hlast : last ≠ []) :
    pieces text = (init.filter (· ≠ [])).map String.ofList ++ [String.ofList last] := by
  have hends : endsWith ['/'] text.toList = false := by
    cases he : endsWith ['/'] text.toList with
    | false => rfl
    | true =>
      have hl := getLast?_split_of_endsWith he
      rw [h, List.getLast?_concat] at hl
      exact absurd (Option.some.inj hl) hlast
  simp [pieces, h, hends, hlast]

/-- A path whose last piece is a name, what stands before it, and the name. -/
structure EndsIn (p : Path) (route : List String) (name : String) : Prop where
  pieces : pieces p.text = route ++ [name]
  notHere : name ≠ "."
  notUp : name ≠ ".."

/-- A path that ends in a name ends in a longer name where text is put after it. -/
theorem endsIn_of_endsInName {p : Path} (h : Tree.endsInName p = true) :
    ∃ route name, EndsIn p route name ∧ ∀ suffix : String, '/' ∉ suffix.toList →
      2 ≤ suffix.length → EndsIn (p.withSuffix suffix) route (name ++ suffix) := by
  obtain ⟨init, last, hsplit, -⟩ := split_append_last (b := []) (by simp : '/' ∉ []) p.text.toList
  have hlast : last ≠ [] ∧ last ≠ ['.'] ∧ last ≠ ['.', '.'] := by
    simpa [Tree.endsInName, hsplit, and_assoc] using h
  have hne : ∀ s : String, last ≠ s.toList → String.ofList last ≠ s := fun s hs e =>
    hs (by rw [← e, String.toList_ofList])
  refine ⟨(init.filter (· ≠ [])).map String.ofList, String.ofList last,
    ⟨pieces_eq hsplit hlast.1, hne _ hlast.2.1, hne _ hlast.2.2⟩, fun suffix hslash hlong => ?_⟩
  obtain ⟨init', last', hsplit', hlonger⟩ := split_append_last hslash p.text.toList
  obtain ⟨rfl, heq⟩ := List.append_inj' (hsplit.symm.trans hsplit') rfl
  cases heq
  have hpieces : pieces (p.text ++ suffix) = (init.filter (· ≠ [])).map String.ofList ++
      [String.ofList (last ++ suffix.toList)] :=
    pieces_eq (by rw [String.toList_append]; exact hlonger) (by simp [hlast.1])
  have hname : String.ofList (last ++ suffix.toList) = String.ofList last ++ suffix := by
    apply String.toList_injective
    simp
  have hlength : 3 ≤ (String.ofList last ++ suffix).length := by
    have hpos := List.length_pos_of_ne_nil hlast.1
    simp only [String.length_append, String.length_ofList]
    omega
  refine ⟨by rw [← hname]; exact hpieces, ?_, ?_⟩ <;>
    · intro e
      rw [e] at hlength
      exact absurd hlength (by decide)

theorem text_ne_empty_of_endsInName {p : Path} (h : Tree.endsInName p = true) : p.text ≠ "" := by
  intro e
  simp [Tree.endsInName, e, split] at h

/-- Text put after a path does not change where it begins to be walked. -/
theorem beginning_withSuffix {p : Path} (h : p.text ≠ "") (dir : Location) (suffix : String) :
    beginning dir (p.withSuffix suffix).text = beginning dir p.text := by
  unfold beginning Path.withSuffix
  rw [Path.isAbsolute_append h]

/-! ## Where such a path leads -/

/-- A path that is walked at all. -/
structure Walkable (p : Path) : Prop where
  noNul : p.text.toList.contains '\x00' = false
  notEmpty : p.text ≠ ""

namespace Tree

variable {t t' : Tree} {p q : Path} {d d' : Descent} {name name' : String} {route : List String}
  {follow : Bool}

theorem place_eq {p : Path} (hp : Walkable p) (t : Tree) (follow : Bool) :
    t.place follow p = t.walk follow linkLimit (beginning t.home p.text) (pieces p.text) := by
  unfold place
  rw [if_neg (by rw [hp.noNul]; simp), if_neg hp.notEmpty]

theorem walkable_of_place {place : Place} (h : t.place follow p = .ok place) : Walkable p := by
  unfold Tree.place at h
  split at h
  · cases h
  split at h
  · cases h
  exact ⟨by simp_all, by assumption⟩

/-- A path leads to a name in the directory that its way ends in. -/
structure Reaches (t : Tree) (p : Path) (d : Descent) (name : String) : Prop where
  walkable : Walkable p
  lookedUp : LookedUp name
  way : ∃ route, pieces p.text = route ++ [name] ∧
    t.Way linkLimit (beginning t.home p.text) route d

/-- What a walk comes to that looks one name up. -/
theorem walk_single {name : String} (h : LookedUp name) (t : Tree) (follow : Bool) (links : Nat)
    (dir : Location)
    (hlink : follow = false ∨ ∀ target, t.entry? (dir ++ [name]) ≠ some (.link target)) :
    t.walk follow links dir [name] =
      match t.entry? (dir ++ [name]) with
      | none => .ok (.vacant dir name)
      | some e => .ok (.entry (dir ++ [name]) e) := by
  rw [walk_cons h]
  rcases he : t.entry? (dir ++ [name]) with _ | _ | ⟨bytes, executable⟩ | target
  · rfl
  · exact walk_nil t follow links (dir ++ [name])
  · rfl
  · rcases hlink with rfl | hlink
    · rfl
    · exact absurd he (hlink target)

theorem Reaches.place (h : t.Reaches p d name)
    (hlink : follow = false ∨ ∀ target, t.entry? (d.dir ++ [name]) ≠ some (.link target)) :
    t.place follow p =
      match t.entry? (d.dir ++ [name]) with
      | none => .ok (.vacant d.dir name)
      | some e => .ok (.entry (d.dir ++ [name]) e) := by
  obtain ⟨route, hroute, hway⟩ := h.way
  rw [place_eq h.walkable, hroute, walk_snoc, descend_of_way hway]
  exact walk_single h.lookedUp t follow d.links d.dir hlink

/-- What a walk comes to that looks up a link and follows it. -/
theorem walk_single_link {name target : String} (h : LookedUp name) {t : Tree} {dir : Location}
    (hlink : t.entry? (dir ++ [name]) = some (.link target)) (links : Nat) :
    t.walk true links dir [name] = t.walkLeap true links (beginning dir target) (pieces target) := by
  rw [walk_cons h, hlink]
  simp

theorem reaches_of_place {place : Place} (hp : EndsIn p route name)
    (h : t.place follow p = .ok place) : ∃ d, t.Reaches p d name := by
  have hwalkable := walkable_of_place h
  rw [place_eq hwalkable, hp.pieces, walk_snoc] at h
  cases hd : t.descend linkLimit (beginning t.home p.text) route with
  | error e => rw [hd] at h; cases h
  | ok d =>
    refine ⟨d, hwalkable, ⟨hp.notHere, hp.notUp, ?_⟩, route, hp.pieces, way_of_descend hd⟩
    rw [hd] at h
    by_contra hlong
    have hwalk : t.walk follow d.links d.dir [name] = .error .nameTooLong := by
      rw [walk_eq, walkWith, if_neg hp.notHere, if_neg hp.notUp, if_pos (Nat.not_le.1 hlong)]
    rw [show (Except.ok d).bind (fun d => t.walk follow d.links d.dir [name]) =
      t.walk follow d.links d.dir [name] from rfl, hwalk] at h
    cases h

/-- Two paths that differ in the last name only lead to the same directory. -/
theorem Reaches.sibling (h : t.Reaches p d name) (hp : EndsIn p route name)
    (hq : EndsIn q route name') (hbegin : beginning t.home q.text = beginning t.home p.text)
    {place : Place} (hplace : t.place follow q = .ok place) :
    t.Reaches q d name' := by
  obtain ⟨d', h'⟩ := reaches_of_place hq hplace
  obtain ⟨r, hr, hway⟩ := h.way
  obtain ⟨r', hr', hway'⟩ := h'.way
  have hroute : r = route := (List.append_inj' (hr.symm.trans hp.pieces) rfl).1
  have hroute' : r' = route := (List.append_inj' (hr'.symm.trans hq.pieces) rfl).1
  rw [hroute] at hway
  rw [hroute', hbegin] at hway'
  have hd : d' = d := Except.ok.inj ((descend_of_way hway').symm.trans (descend_of_way hway))
  exact hd ▸ h'

/-- A path leads to the same name where nothing has changed on its way. -/
theorem Reaches.congr (h : t.Reaches p d name) (hhome : t'.home = t.home)
    (hsame : ∀ loc ∈ d.trail, t'.entry? loc = t.entry? loc) : t'.Reaches p d name := by
  obtain ⟨route, hroute, hway⟩ := h.way
  exact ⟨h.walkable, h.lookedUp, route, hroute, hhome ▸ hway.congr hsame⟩

/-- The location that a path names, whether or not anything stands there. -/
def locate? (t : Tree) (p : Path) : Option Location :=
  match t.place false p with
  | .ok (.entry loc _) => some loc
  | .ok (.vacant dir name) => some (dir ++ [name])
  | .error _ => none

/-- Whether the location that a path names stands on the way there: the path goes through a link and
then names it. -/
def leadsThroughItself (t : Tree) (p : Path) : Bool :=
  match t.locate? p, t.descend linkLimit (beginning t.home p.text) (pieces p.text).dropLast with
  | some loc, .ok d => loc ∈ d.trail
  | _, _ => false

theorem Reaches.locate? (h : t.Reaches p d name) : t.locate? p = some (d.dir ++ [name]) := by
  unfold Tree.locate?
  rw [h.place (.inl rfl)]
  cases t.entry? (d.dir ++ [name]) <;> rfl

theorem Reaches.leadsThroughItself (h : t.Reaches p d name) :
    t.leadsThroughItself p = decide (d.dir ++ [name] ∈ d.trail) := by
  obtain ⟨route, hroute, hway⟩ := h.way
  unfold Tree.leadsThroughItself
  rw [h.locate?, hroute, List.dropLast_concat, descend_of_way hway]

theorem Reaches.find (h : t.Reaches p d name)
    (hlink : follow = false ∨ ∀ target, t.entry? (d.dir ++ [name]) ≠ some (.link target)) :
    t.find follow p =
      match t.entry? (d.dir ++ [name]) with
      | none => .error .missing
      | some e => .ok (d.dir ++ [name], e) := by
  unfold Tree.find
  rw [h.place hlink]
  cases t.entry? (d.dir ++ [name]) <;> rfl

/-- A path leads nowhere where a file stands on its way. -/
theorem Reaches.blocked (h : t.Reaches p d name) (hhome : t'.home = t.home) {loc : Location}
    (hloc : loc ∈ d.trail) {bytes : List UInt8} {executable : Bool}
    (hfile : t'.entry? loc = some (.file bytes executable))
    (hsame : ∀ l ∈ d.trail, l ≠ loc → t'.entry? l = t.entry? l) (follow : Bool) :
    t'.place follow p = .error .notDirectory := by
  obtain ⟨route, hroute, hway⟩ := h.way
  rw [place_eq h.walkable, hroute, walk_snoc, hhome, hway.blocked hloc hfile hsame]
  rfl

/-! ## Operations -/

theorem endsInName_of_write {bytes : List UInt8} (hp : p.text ≠ "") (h : t.write p bytes = .ok t') :
    endsInName p = true := by
  cases he : endsInName p with
  | true => rfl
  | false =>
    unfold Tree.write at h
    rw [if_pos ⟨hp, he⟩] at h
    cases hf : t.find true (holder p) <;> rw [hf] at h <;> cases h

theorem endsInName_of_rename (h : t.rename p q = .ok t') : endsInName q = true := by
  cases he : endsInName q with
  | true => rfl
  | false =>
    unfold Tree.rename at h
    cases hp : t.find false p with
    | error e => rw [hp] at h; cases h
    | ok found =>
      rw [hp] at h
      simp only [bind, Except.bind, if_pos he] at h
      cases hf : t.find true (holder q) <;> rw [hf] at h <;> cases h

theorem readBytes_of_readText {s : String} (h : t.readText p = .ok s) :
    ∃ bytes, t.readBytes p = .ok bytes := by
  unfold Tree.readText at h
  cases hb : t.readBytes p with
  | error e => rw [hb] at h; cases h
  | ok bytes => exact ⟨bytes, rfl⟩

theorem place_of_readBytes {bytes : List UInt8} (h : t.readBytes p = .ok bytes) :
    ∃ place, t.place true p = .ok place := by
  unfold Tree.readBytes Tree.find at h
  cases hp : t.place true p with
  | error e => rw [hp] at h; cases h
  | ok place => exact ⟨place, rfl⟩

theorem place_of_rename (hname : endsInName q = true) (h : t.rename p q = .ok t') :
    ∃ place, t.place false q = .ok place := by
  unfold Tree.rename at h
  cases hf : t.find false p with
  | error e => rw [hf] at h; cases h
  | ok found =>
    rw [hf] at h
    simp only [bind, Except.bind] at h
    rw [if_neg (by simp [hname])] at h
    cases hp : t.place false q with
    | error e => rw [hp] at h; cases h
    | ok place => exact ⟨place, rfl⟩

/-- A file is renamed: it is where the new path leads to, and no longer where the old one did. -/
theorem Reaches.rename {e : Entry} (h : t.Reaches p d name)
    (he : t.entry? (d.dir ++ [name]) = some e) (h' : t.Reaches q d' name')
    (hne : d'.dir ++ [name'] ≠ d.dir ++ [name]) (hname : endsInName q = true)
    (hr : t.rename p q = .ok t') : t.entry? (d'.dir ++ [name']) ≠ some .directory ∧
      t' = (t.erase (d.dir ++ [name])).put (d'.dir ++ [name']) e := by
  have hfind : t.find false p = .ok (d.dir ++ [name], e) := by
    rw [h.find (.inl rfl), he]
  unfold Tree.rename at hr
  rw [hfind] at hr
  simp only [bind, Except.bind] at hr
  rw [if_neg (by simp [hname]), h'.place (.inl rfl)] at hr
  rcases ht : t.entry? (d'.dir ++ [name']) with _ | _ | ⟨b, x⟩ | target <;> rw [ht] at hr
  · cases hr; exact ⟨by simp, rfl⟩
  · cases hr
  · simp only [if_neg hne] at hr
    cases hr; exact ⟨by simp, rfl⟩
  · simp only [if_neg hne] at hr
    cases hr; exact ⟨by simp, rfl⟩

/-- What is discarded is a file or a link. -/
theorem Reaches.discard {e : Entry} (h : t.Reaches p d name)
    (he : t.entry? (d.dir ++ [name]) = some e) (hdir : e ≠ .directory) :
    t.discard p = t.erase (d.dir ++ [name]) := by
  have hfind : t.find false p = .ok (d.dir ++ [name], e) := by
    rw [h.find (.inl rfl), he]
  unfold Tree.discard Tree.removeFile
  rw [hfind]
  cases e with
  | directory => exact absurd rfl hdir
  | file b x => rfl
  | link target => rfl

/-- A path that leads nowhere discards nothing. -/
theorem discard_of_place {e : Fault} (h : t.place false p = .error e) : t.discard p = t := by
  unfold Tree.discard Tree.removeFile find
  rw [h]
  rfl

/-- Behind a link that some way leads through there is a directory. -/
theorem Reaches.place_of_mem_trail (h : t.Reaches p d name) {target : String}
    (he : t.entry? (d.dir ++ [name]) = some (.link target)) {links : Nat} {dir : Location}
    (hway : t.Way links dir route d') (hmem : d.dir ++ [name] ∈ d'.trail) {place : Place}
    (hplace : t.place true p = .ok place) : ∃ loc, place = .entry loc .directory := by
  obtain ⟨fewer, holder, name', d'', hloc, hbehind⟩ := hway.behind hmem he
  rw [← (List.append_inj' hloc rfl).1] at hbehind
  obtain ⟨own, hown, hownWay⟩ := h.way
  rw [place_eq h.walkable, hown, walk_snoc, descend_of_way hownWay] at hplace
  have hleap : t.walkLeap true d.links (beginning d.dir target) (pieces target) = .ok place :=
    (walk_single_link h.lookedUp he d.links).symm.trans hplace
  cases hl : d.links with
  | zero => rw [hl] at hleap; cases hleap
  | succ links =>
    rw [hl] at hleap
    exact ⟨_, hbehind.walk_eq_ok hleap⟩

/-- What can be read through a path is a file or a link, and no way leads through it. -/
theorem Reaches.readBytes {bytes : List UInt8} (h : t.Reaches p d name)
    (hr : t.readBytes p = .ok bytes) : ∃ e, t.entry? (d.dir ++ [name]) = some e ∧ e ≠ .directory ∧
      ∀ {links : Nat} {dir : Location} {route : List String} {d' : Descent},
        t.Way links dir route d' → d.dir ++ [name] ∉ d'.trail := by
  obtain ⟨place, hplace⟩ := place_of_readBytes hr
  unfold Tree.readBytes at hr
  rcases he : t.entry? (d.dir ++ [name]) with _ | _ | ⟨b, x⟩ | target
  · rw [h.find (.inr (by simp [he])), he] at hr
    cases hr
  · rw [h.find (.inr (by simp [he])), he] at hr
    cases hr
  · exact ⟨_, rfl, by simp, fun hway => hway.not_mem_trail (.inr ⟨b, x, he⟩)⟩
  · refine ⟨_, rfl, by simp, fun hway hmem => ?_⟩
    obtain ⟨loc, rfl⟩ := h.place_of_mem_trail he hway hmem hplace
    unfold Tree.find at hr
    rw [hplace] at hr
    cases hr

end Tree

end CoverageRun.Files
