/-
What is found below a directory: the files with the extension that are reached through directories
none of which is skipped, each once and in path order, whatever the directory itself is called.
The order is that of the walk, since the names in a directory are listed in order and a path that
is joined to another has its parts behind those of the other. Removing takes these files, leaves
all else as it is, and nothing is found any more.
-/
import CoverageRun.Proofs.Files.Following
import CoverageRun.Proofs.Path
import CoverageRun.Proofs.Profile.Collection

namespace CoverageRun

open Files

/-! ## Comparing lists -/

section Lists

variable {α : Type} [Ord α]

theorem compare_cons_cons (a b : α) (as bs : List α) :
    compare (a :: as) (b :: bs) = (compare a b).then (compare as bs) := List.compareLex_cons_cons

theorem compare_cons_self [Std.ReflOrd α] (a : α) (as bs : List α) :
    compare (a :: as) (a :: bs) = compare as bs := by
  have ha : compare a a = .eq := Std.ReflCmp.compare_self
  rw [compare_cons_cons, ha]
  rfl

theorem compare_append_left [Std.ReflOrd α] (as bs : List α) : ∀ front : List α,
    compare (front ++ as) (front ++ bs) = compare as bs
  | [] => rfl
  | a :: front => by
    rw [List.cons_append, List.cons_append, compare_cons_self, compare_append_left as bs front]

theorem compare_singleton (a b : α) : compare [a] [b] = compare a b := by
  rw [compare_cons_cons, show compare ([] : List α) [] = .eq from rfl]
  cases compare a b <;> rfl

end Lists

/-- Names among parts are in the order of the names. -/
theorem compare_map_name : ∀ as bs : List String,
    compare (as.map Part.name) (bs.map Part.name) = compare as bs
  | [], [] => rfl
  | [], _ :: _ => rfl
  | _ :: _, [] => rfl
  | a :: as, b :: bs => by
    have hname : compare (Part.name a) (Part.name b) = compare a b := by
      show compareLex (compareOn Part.rank) (compareOn Part.text) _ _ = _
      simp [compareLex, compareOn, Part.rank, Part.text]
    rw [List.map_cons, List.map_cons, compare_cons_cons, compare_cons_cons, hname,
      compare_map_name as bs]

/-! ## Paths below a directory -/

namespace Path

/-- A name that an entry of a directory can have. -/
def IsEntryName (n : String) : Prop := n ≠ "" ∧ n ≠ "." ∧ n ≠ ".." ∧ '/' ∉ n.toList

instance (n : String) : Decidable (IsEntryName n) :=
  inferInstanceAs (Decidable (n ≠ "" ∧ n ≠ "." ∧ n ≠ ".." ∧ '/' ∉ n.toList))

theorem IsEntryName.stepsIn {n : String} (h : IsEntryName n) :
    Path.stepsIn n.toList = [.name n] := by
  obtain ⟨hempty, hhere, hup, hslash⟩ := h
  have hpiece : Part.ofPiece? n.toList = some (.name n) := by
    rw [ofPiece?_eq_name (fun he => hempty (String.toList_eq_nil_iff.1 he))
      (fun he => hhere (String.toList_inj.1 he)) (fun he => hup (String.toList_inj.1 he)),
      String.ofList_toList]
  rw [Path.stepsIn, Text.split_of_not_mem hslash, List.filterMap_cons_some hpiece,
    List.filterMap_nil]

/-- A path that does not start at the root has its steps behind the parts it is joined to. -/
theorem parts_join {p : Path} (hp : p.text ≠ "") {q : String}
    (hrel : (Path.mk q).isAbsolute = false) :
    (p.join q).text ≠ "" ∧ (p.join q).parts = p.parts ++ stepsIn q.toList := by
  -- what stands before the slash before the path joined has the parts of the path
  obtain ⟨front, more, hjoin, htext, hsteps, hhead⟩ : ∃ front more, p.join q = ⟨p.text ++ more⟩ ∧
      (p.text ++ more).toList = front ++ '/' :: q.toList ∧
      Path.stepsIn p.text.toList = Path.stepsIn front ∧
      (Text.split '/' p.text.toList).head? = (Text.split '/' front).head? := by
    unfold join
    rw [if_neg (by simp [hrel, hp])]
    split
    · rename_i hslash
      obtain ⟨front, hfront⟩ := Text.eq_append_of_endsWith hslash
      refine ⟨front, q, rfl, by simp [hfront], ?_, ?_⟩
      · rw [hfront, stepsIn_append]
        exact List.append_nil _
      · rw [hfront, Text.split_snoc, List.head?_append_of_ne_nil _ (Text.split_ne_nil _ _)]
    · exact ⟨p.text.toList, "/" ++ q, by rw [String.append_assoc], by simp, rfl, rfl⟩
  rw [hjoin]
  refine ⟨fun he => hp (String.append_eq_empty_iff.1 he).1, ?_⟩
  rw [parts_eq, parts_eq p, isAbsolute_append hp, htext, stepsIn_append, Text.split_append_sep,
    List.head?_append_of_ne_nil _ (Text.split_ne_nil _ _), hsteps, hhead, List.append_assoc]

/-- A name that is joined to a path is one part more. -/
theorem parts_join_name {p : Path} (hp : p.text ≠ "") {n : String} (hn : IsEntryName n) :
    (p.join n).text ≠ "" ∧ (p.join n).parts = p.parts ++ [.name n] := by
  have hrel : (Path.mk n).isAbsolute = false := Bool.eq_false_iff.2 fun habs =>
    hn.2.2.2 (List.mem_of_head? (eq_of_beq habs))
  simpa only [hn.stepsIn] using parts_join hp hrel

theorem parts_foldl_join : ∀ {names : List String} {p : Path}, p.text ≠ "" →
    (∀ n ∈ names, IsEntryName n) → (names.foldl join p).parts = p.parts ++ names.map Part.name
  | [], p, _, _ => (List.append_nil _).symm
  | n :: names, p, hp, h => by
    obtain ⟨hne, hparts⟩ := parts_join_name hp (h n List.mem_cons_self)
    rw [List.foldl_cons, parts_foldl_join hne fun m hm => h m (List.mem_cons_of_mem n hm), hparts,
      List.append_assoc]
    rfl

end Path

open CoverageRun.Path

/-- A tree whose locations consist of names that entries can have. -/
def Files.Tree.IsNamed (t : Tree) : Prop := ∀ loc ∈ t.entries.keys, ∀ n ∈ loc, IsEntryName n

instance (t : Tree) : Decidable t.IsNamed :=
  inferInstanceAs (Decidable (∀ loc ∈ t.entries.keys, ∀ n ∈ loc, IsEntryName n))

theorem Files.Tree.IsNamed.isEntryName {t : Tree} (h : t.IsNamed) {loc : Location} {e : Entry}
    (he : t.entry? loc = some e) {n : String} (hn : n ∈ loc) : IsEntryName n := by
  unfold entry? at he
  split at he
  · rename_i hloc
    rw [hloc] at hn
    cases hn
  · by_contra hname
    rw [Store.OrderedMap.get?_eq_none_of_notMem fun hkey => hname (h loc hkey n hn)] at he
    cases he

namespace Profile

variable {t : Tree} {root : Path} {dir loc : Location}

/-! ## The order of the walk -/

theorem children_ascending (t : Tree) (dir : Location) :
    (t.children dir).Pairwise fun a b => compare a.1 b.1 = .lt := by
  unfold Tree.children
  refine List.pairwise_filterMap.2 (t.entries.ascending.imp fun {a b} hlt => ?_)
  rintro ⟨n, e⟩ ha ⟨m, e'⟩ hb
  simp only at ha hb
  split at ha <;> cases ha
  rename_i hbelow
  split at hb <;> cases hb
  rename_i hbelow'
  -- two entries of one directory differ in the last name of their locations
  rwa [Tree.below?_eq_some.1 hbelow, Tree.below?_eq_some.1 hbelow', compare_append_left,
    compare_singleton] at hlt

/-- The names on the way to each profile that an entry of a directory leads to. -/
def namesThrough (t : Tree) (depth : Nat) (dir : Location) (child : String × Entry) :
    List Location :=
  if child.2 = .directory then
    if isSkipped child.1 then [] else (namesWithin t depth (dir ++ [child.1])).map (child.1 :: ·)
  else if isProfile child.1 child.2 then [[child.1]] else []

theorem namesWithin_succ (t : Tree) (depth : Nat) (dir : Location) :
    namesWithin t (depth + 1) dir = (t.children dir).flatMap (namesThrough t depth dir) := by
  rw [namesWithin]
  congr 1
  funext child
  obtain ⟨n, e⟩ := child
  cases e <;> rfl

theorem exists_cons_of_mem_namesThrough {depth : Nat} {child : String × Entry} {names : Location}
    (h : names ∈ namesThrough t depth dir child) : ∃ rest, names = child.1 :: rest := by
  unfold namesThrough at h
  split at h
  · split at h
    · cases h
    · obtain ⟨rest, -, rfl⟩ := List.mem_map.1 h
      exact ⟨rest, rfl⟩
  · split at h
    · exact ⟨[], List.mem_singleton.1 h⟩
    · cases h

theorem namesWithin_ascending (t : Tree) : ∀ (depth : Nat) (dir : Location),
    (namesWithin t depth dir).Pairwise fun a b => compare a b = .lt
  | 0, _ => .nil
  | depth + 1, dir => by
    rw [namesWithin_succ, List.pairwise_flatMap]
    refine ⟨fun child _ => ?_, (children_ascending t dir).imp fun {a b} hlt as has bs hbs => ?_⟩
    · unfold namesThrough
      split
      · split
        · exact .nil
        · refine List.pairwise_map.2 ((namesWithin_ascending t depth _).imp fun hlt => ?_)
          rwa [compare_cons_self]
      · split
        · exact List.pairwise_singleton _ _
        · exact .nil
    · -- what two entries lead to differs in the names of the entries
      obtain ⟨rest, rfl⟩ := exists_cons_of_mem_namesThrough has
      obtain ⟨rest', rfl⟩ := exists_cons_of_mem_namesThrough hbs
      rw [compare_cons_cons, hlt]
      rfl

/-! ## Profiles -/

/-- A file with the extension that is reached from a directory through directories which are
searched. -/
structure IsProfileAt (t : Tree) (dir : Location) (above : List String) (name : String) : Prop where
  file : ∃ bytes executable, t.entry? (dir ++ above ++ [name]) = some (.file bytes executable)
  named : ∃ stem, stem ≠ "" ∧ name = stem ++ ".profraw"
  through : ∀ way, way <+: above → way ≠ [] → t.entry? (dir ++ way) = some .directory
  searched : ∀ n ∈ above, n ≠ "target" ∧ n ≠ ".git"

theorem extension?_eq_some_iff {name : String} :
    extension? name = some extension ↔ ∃ stem, stem ≠ "" ∧ name = stem ++ ".profraw" := by
  unfold extension?
  constructor
  · intro h
    split at h
    · rename_i tail before hcut
      split at h
      · cases h
      rename_i hbefore
      have htail : tail = extension.toList.reverse := by
        rw [← Option.some.inj h]
        simp
      refine ⟨String.ofList before.reverse, fun he => hbefore ?_, String.toList_inj.1 ?_⟩
      · simpa using congrArg String.toList he
      · rw [← List.reverse_reverse name.toList, Text.eq_of_cut hcut, htail]
        simp [extension]
    · cases h
  · rintro ⟨stem, hstem, rfl⟩
    have hreverse : (stem ++ ".profraw").toList.reverse =
        extension.toList.reverse ++ '.' :: stem.toList.reverse := by simp [extension]
    have hne : stem.toList.reverse ≠ [] := by simpa using hstem
    rw [hreverse, Text.cut_append _ (by decide)]
    simp [hne]

theorem entry?_snoc (t : Tree) (dir : Location) (n : String) :
    t.entry? (dir ++ [n]) = t.entries.get? (dir ++ [n]) := by
  simp [Tree.entry?]

theorem isProfile_iff {name : String} {e : Entry} : isProfile name e = true ↔
    (∃ bytes executable, e = .file bytes executable) ∧
      ∃ stem, stem ≠ "" ∧ name = stem ++ ".profraw" := by
  cases e <;> simp [isProfile, extension?_eq_some_iff]

theorem isSkipped_eq_false_iff {n : String} : isSkipped n = false ↔ n ≠ "target" ∧ n ≠ ".git" := by
  unfold isSkipped
  simp [and_comm]

theorem isProfileAt_of_leads {names : List String} (h : Leads t dir names) :
    ∃ above name, names = above ++ [name] ∧ IsProfileAt t dir above name := by
  induction h with
  | @profile dir name e hentry hprofile =>
    obtain ⟨⟨bytes, executable, rfl⟩, hname⟩ := isProfile_iff.1 hprofile
    refine ⟨[], name, rfl, ⟨bytes, executable, ?_⟩, hname, fun way hway hne => ?_, by simp⟩
    · rw [List.append_nil, entry?_snoc, hentry]
    · exact absurd (List.prefix_nil.1 hway) hne
  | @into dir n names hentry hskip _ ih =>
    obtain ⟨above, name, rfl, hfile, hname, hthrough, hsearched⟩ := ih
    refine ⟨n :: above, name, rfl, ?_, hname, fun way hway hne => ?_, fun m hm => ?_⟩
    · simpa using hfile
    · obtain ⟨m, way, rfl⟩ := List.exists_cons_of_ne_nil hne
      obtain ⟨rfl, hrest⟩ := List.cons_prefix_cons.1 hway
      by_cases hlast : way = []
      · rw [hlast, entry?_snoc, hentry]
      · simpa using hthrough way hrest hlast
    · rcases List.mem_cons.1 hm with rfl | hm
      · exact isSkipped_eq_false_iff.1 hskip
      · exact hsearched m hm

theorem IsProfileAt.leads : ∀ {above : List String} {dir : Location} {name : String},
    IsProfileAt t dir above name → Leads t dir (above ++ [name])
  | [], dir, name, h => by
    obtain ⟨bytes, executable, hfile⟩ := h.file
    rw [List.append_nil, entry?_snoc] at hfile
    exact .profile hfile (isProfile_iff.2 ⟨⟨bytes, executable, rfl⟩, h.named⟩)
  | n :: above, dir, name, h => by
    have hentry := h.through [n] (by simp) (List.cons_ne_nil n [])
    rw [entry?_snoc] at hentry
    refine .into hentry (isSkipped_eq_false_iff.2 (h.searched n List.mem_cons_self)) ?_
    refine IsProfileAt.leads ⟨by simpa using h.file, h.named, fun way hway hne => ?_,
      fun m hm => h.searched m (List.mem_cons_of_mem n hm)⟩
    simpa using h.through (n :: way) (by simpa using hway) (List.cons_ne_nil n way)

/-! ## What is found -/

/-- Names that lead from the directory at the end of a path to a profile, and where that stands. -/
def IsFound (t : Tree) (root : Path) (names : List String) (loc : Location) : Prop :=
  ∃ dir above name, t.find true root = .ok (dir, .directory) ∧ IsProfileAt t dir above name ∧
    names = above ++ [name] ∧ loc = dir ++ names

theorem directoryAt?_eq_some_iff :
    directoryAt? t root = some dir ↔ t.find true root = .ok (dir, .directory) := by
  unfold directoryAt?
  rcases t.find true root with fault | ⟨loc, _ | _ | _⟩ <;> simp

theorem isFound_iff {names : List String} : IsFound t root names loc ↔
    ∃ dir, directoryAt? t root = some dir ∧ Leads t dir names ∧ loc = dir ++ names := by
  unfold IsFound
  constructor
  · rintro ⟨dir, above, name, hdir, hprofile, rfl, rfl⟩
    exact ⟨dir, directoryAt?_eq_some_iff.2 hdir, hprofile.leads, rfl⟩
  · rintro ⟨dir, hdir, hleads, rfl⟩
    obtain ⟨above, name, rfl, hprofile⟩ := isProfileAt_of_leads hleads
    exact ⟨dir, above, name, directoryAt?_eq_some_iff.1 hdir, hprofile, rfl, rfl⟩

theorem mem_artifacts {p : Path} : p ∈ (collect t root).artifacts ↔
    ∃ names loc, IsFound t root names loc ∧ p = names.foldl Path.join root := by
  simp only [isFound_iff]
  unfold collect
  cases directoryAt? t root with
  | none => simp
  | some dir => simp [mem_namesBelow, eq_comm]

theorem mem_collected_iff : loc ∈ collected t root ↔ ∃ names, IsFound t root names loc := by
  rw [mem_collected]
  simp only [isFound_iff]
  exact exists_comm

theorem text_ne_empty_of_directoryAt? (h : directoryAt? t root = some dir) : root.text ≠ "" := by
  have hfind := directoryAt?_eq_some_iff.1 h
  unfold Tree.find at hfind
  split at hfind <;> cases hfind
  rename_i hplace
  exact (Tree.walkable_of_place hplace).notEmpty

theorem artifacts_ascending (hnamed : t.IsNamed) (root : Path) :
    (collect t root).artifacts.Pairwise fun p q => compare p q = .lt := by
  unfold collect
  cases hdir : directoryAt? t root with
  | none => exact .nil
  | some dir =>
    have hroot := text_ne_empty_of_directoryAt? hdir
    have hproper : ∀ names ∈ namesBelow t dir, ∀ n ∈ names, IsEntryName n := by
      intro names hmem n hn
      obtain ⟨above, name, rfl, hprofile⟩ := isProfileAt_of_leads (mem_namesBelow.1 hmem)
      obtain ⟨bytes, executable, hfile⟩ := hprofile.file
      rw [List.append_assoc] at hfile
      exact hnamed.isEntryName hfile (List.mem_append_right _ hn)
    -- paths are compared by their parts, which below one root are the names
    refine List.pairwise_map.2 ((namesWithin_ascending t _ dir).imp_of_mem fun has hbs hlt => ?_)
    show compare (Path.parts _) (Path.parts _) = .lt
    rw [parts_foldl_join hroot (hproper _ has), parts_foldl_join hroot (hproper _ hbs),
      compare_append_left, compare_map_name]
    exact hlt

/-! ## What is left -/

theorem count_removeAll (t : Tree) (root : Path) :
    (removeAll t root).1 = (collect t root).artifacts.length := by
  unfold removeAll collect
  cases directoryAt? t root with
  | none => rfl
  | some dir => exact (List.length_map _).symm

theorem entry?_removeAll (t : Tree) (root : Path) (loc : Location) :
    Tree.entry? (removeAll t root).2 loc =
      if loc ∈ collected t root then none else t.entry? loc := by
  unfold Tree.entry?
  split
  · rename_i hloc
    rw [if_neg fun hmem => ?_]
    obtain ⟨dir, names, -, hleads, rfl⟩ := mem_collected.1 hmem
    obtain ⟨above, name, rfl, -⟩ := isProfileAt_of_leads hleads
    simp at hloc
  · exact get?_removeAll t root loc

/-- Directories and links stay. -/
theorem entry?_removeAll_of_not_file (root : Path)
    (h : ∀ bytes executable, t.entry? loc ≠ some (.file bytes executable)) :
    Tree.entry? (removeAll t root).2 loc = t.entry? loc := by
  rw [entry?_removeAll, if_neg fun hmem => ?_]
  obtain ⟨names, dir, above, name, -, hprofile, rfl, rfl⟩ := mem_collected_iff.1 hmem
  obtain ⟨bytes, executable, hfile⟩ := hprofile.file
  rw [List.append_assoc] at hfile
  exact h _ _ hfile

theorem directoryAt?_removeAll (h : directoryAt? t root = some dir) :
    directoryAt? (removeAll t root).2 root = some dir := by
  rw [directoryAt?_eq_some_iff] at h ⊢
  refine Tree.find_directory h (home_removeAll t root) fun loc hloc => ?_
  refine entry?_removeAll_of_not_file root fun bytes executable hfile => ?_
  rcases hloc with hdir | ⟨target, hlink⟩
  · rw [hfile] at hdir
    cases hdir
  · rw [hfile] at hlink
    cases hlink

theorem artifacts_removeAll (t : Tree) (root : Path) :
    (collect (removeAll t root).2 root).artifacts = [] := by
  rw [List.eq_nil_iff_forall_not_mem]
  intro p hp
  obtain ⟨names, loc, hfound, -⟩ := mem_artifacts.1 hp
  obtain ⟨dir, hdir, hleads, rfl⟩ := isFound_iff.1 hfound
  -- the root leads to a directory after the removal exactly if it did so before
  cases hbefore : directoryAt? t root with
  | none =>
    have hsame : (removeAll t root).2 = t := by unfold removeAll; rw [hbefore]
    rw [hsame, hbefore] at hdir
    cases hdir
  | some before =>
    obtain rfl : before = dir := Option.some.inj ((directoryAt?_removeAll hbefore).symm.trans hdir)
    -- what is there has been there before, so it was among what was taken
    have hkept : ∀ {l e}, (removeAll t root).2.entries.get? l = some e →
        t.entries.get? l = some e := by
      intro l e hl
      rw [get?_removeAll] at hl
      split at hl
      · cases hl
      · exact hl
    obtain ⟨bytes, executable, hfile⟩ := hleads.file
    have hthere : Leads t before names :=
      hleads.congr (fun l hl => hkept hl) ((hkept hfile).trans hfile.symm)
    rw [get?_removeAll, if_pos (mem_collected.2 ⟨before, names, hbefore, hthere, rfl⟩)] at hfile
    cases hfile

/-- What is collected below a path is, each once and in path order, all files with the extension
that are reached from the directory it leads to through directories none of which is skipped and
through no link; where it leads to no directory that is nothing. Removing takes exactly these
files, tells how many they were, and nothing is collected any more. -/
theorem collect_exact (t : Tree) (root : Path) (hnamed : t.IsNamed) :
    let found := (collect t root).artifacts
    let left := (removeAll t root).2
    found.Pairwise (fun p q => compare p q = .lt) ∧
    (∀ p, p ∈ found ↔ ∃ names loc, IsFound t root names loc ∧ p = names.foldl Path.join root) ∧
    ((∀ dir, t.find true root ≠ .ok (dir, .directory)) → found = []) ∧
    (removeAll t root).1 = found.length ∧
    (∀ loc, (∃ names, IsFound t root names loc) → left.entry? loc = none) ∧
    (∀ loc, (¬ ∃ names, IsFound t root names loc) → left.entry? loc = t.entry? loc) ∧
    left.home = t.home ∧
    (collect left root).artifacts = [] := by
  refine ⟨artifacts_ascending hnamed root, fun p => mem_artifacts, fun hnone => ?_,
    count_removeAll t root, fun loc hfound => ?_, fun loc hfound => ?_, home_removeAll t root,
    artifacts_removeAll t root⟩
  · rw [List.eq_nil_iff_forall_not_mem]
    intro p hp
    obtain ⟨names, loc, ⟨dir, above, name, hdir, -⟩, -⟩ := mem_artifacts.1 hp
    exact hnone dir hdir
  · rw [entry?_removeAll, if_pos (mem_collected_iff.2 hfound)]
  · rw [entry?_removeAll, if_neg fun hmem => hfound (mem_collected_iff.1 hmem)]

/-- A directory called `target` with one profile below it, one in a directory of it, one in
`.git`, and a file that is all extension. -/
theorem collect_exact_target :
    let t := (Tree.empty ["target"])
      |>.put ["target", "b.profraw"] (.text "2")
      |>.put ["target", "a"] .directory
      |>.put ["target", "a", "x.profraw"] (.text "1")
      |>.put ["target", ".git"] .directory
      |>.put ["target", ".git", "c.profraw"] (.text "3")
      |>.put ["target", ".profraw"] (.text "4")
    let root : Path := ⟨"/target/."⟩
    t.IsNamed ∧
      (collect t root).artifacts = [⟨"/target/./a/x.profraw"⟩, ⟨"/target/./b.profraw"⟩] ∧
      (removeAll t root).1 = 2 ∧ (collect (removeAll t root).2 root).artifacts = [] ∧
      ∃ names loc, IsFound t root names loc ∧ Tree.entry? (removeAll t root).2 loc = none ∧
        names.foldl Path.join root = ⟨"/target/./a/x.profraw"⟩ := by
  intro t root
  have hnamed : t.IsNamed := by decide +kernel
  have hfound : (collect t root).artifacts =
      [⟨"/target/./a/x.profraw"⟩, ⟨"/target/./b.profraw"⟩] := by decide +kernel
  obtain ⟨-, hmem, -, hcount, hgone, -, -, hempty⟩ := collect_exact t root hnamed
  obtain ⟨names, loc, hloc, hpath⟩ := (hmem ⟨"/target/./a/x.profraw"⟩).1 (by simp [hfound])
  exact ⟨hnamed, hfound, by rw [hcount, hfound]; rfl, hempty, names, loc, hloc,
    hgone loc ⟨names, hloc⟩, hpath.symm⟩

end Profile

end CoverageRun
