/-
Whether the profiles that a run writes are collected. A pattern that passes the check is expanded
piece by piece between its slashes, and a piece with a mark in it becomes a name that holds a digit:
none that is skipped, and none that is no name. So the file stands below the directory along the
pieces of the pattern, its name ends in the extension, and it is collected unless one of the
directories in the pattern is one that is not searched.
-/
import CoverageRun.Instrumentation.Settings
import CoverageRun.Proofs.Profile.Expansion
import CoverageRun.Proofs.Profile.Found
import CoverageRun.Proofs.Run.Work
import Mathlib.Data.List.Infix

namespace CoverageRun

namespace Profile

open Files Numeral

/-! ## Expanded pieces -/

/-- The characters of a pattern or of a piece of one, with the marks filled in for a writer. -/
def expanded (suffix : List Char) (w : Writer) (cs : List Char) : List Char :=
  fill w.shown (template suffix cs)

variable {suffix : List Char} {w : Writer} {cs : List Char}

theorem toList_expand (suffix pattern : String) (w : Writer) :
    (expand suffix pattern w).toList = expanded suffix.toList w pattern.toList :=
  String.toList_ofList

/-- No mark reaches across a character that is not the letter of one. -/
theorem template_append (suffix : List Char) {c : Char} (hprocess : c ≠ 'p') (hmodule : c ≠ 'm')
    (rest : List Char) : ∀ cs : List Char, template suffix (cs ++ c :: rest) =
      template suffix cs ++ template suffix (c :: rest) := by
  intro cs
  induction cs using template.induct with
  | case1 cs ih => simp [template, ih]
  | case2 cs ih => simp [template, ih]
  | case3 d cs hp hm ih =>
    rw [List.cons_append, template.eq_3 suffix d cs hp hm, template.eq_3, ih, List.cons_append]
    · rintro after rfl h
      cases cs with
      | nil => exact hprocess (List.cons.inj h).1
      | cons e cs => exact hp cs rfl (by rw [(List.cons.inj h).1])
    · rintro after rfl h
      cases cs with
      | nil => exact hmodule (List.cons.inj h).1
      | cons e cs => exact hm cs rfl (by rw [(List.cons.inj h).1])
  | case4 => rfl

theorem expanded_append {c : Char} (hprocess : c ≠ 'p') (hmodule : c ≠ 'm') (rest cs : List Char) :
    expanded suffix w (cs ++ c :: rest) =
      expanded suffix w cs ++ expanded suffix w (c :: rest) := by
  unfold expanded
  rw [template_append suffix hprocess hmodule, fill_append]

theorem fill_literals (v : Mark → List Char) : ∀ cs : List Char, fill v (cs.map .literal) = cs
  | [] => rfl
  | c :: cs => by rw [List.map_cons, fill_cons, fill_literals v cs]; rfl

@[simp]
theorem expanded_process (suffix : List Char) (w : Writer) (cs : List Char) :
    expanded suffix w ('%' :: 'p' :: cs) = write w.process ++ expanded suffix w cs := by
  simp [expanded, template, Piece.chars, Writer.shown]

@[simp]
theorem expanded_module (suffix : List Char) (w : Writer) (cs : List Char) :
    expanded suffix w ('%' :: 'm' :: cs) =
      write w.signature ++ (suffix ++ expanded suffix w cs) := by
  simp [expanded, template, Piece.chars, Writer.shown, fill_literals]

theorem expanded_cons {c : Char} (hprocess : ∀ rest, c = '%' → cs = 'p' :: rest → False)
    (hmodule : ∀ rest, c = '%' → cs = 'm' :: rest → False) :
    expanded suffix w (c :: cs) = c :: expanded suffix w cs := by
  unfold expanded
  rw [template.eq_3 suffix c cs hprocess hmodule, fill_cons]
  rfl

/-- A pattern with no mark stays as it is; in any other a digit takes the place of a mark. -/
theorem expanded_cases (suffix : List Char) (w : Writer) (cs : List Char) :
    expanded suffix w cs = cs ∨ '%' ∈ cs ∧ ∃ d ∈ expanded suffix w cs, isDigit d = true := by
  have hdigit : ∀ n, ∃ d ∈ write n, isDigit d = true := fun n => by
    obtain ⟨d, hd⟩ := List.exists_mem_of_ne_nil _ (write_ne_nil n)
    exact ⟨d, hd, isDigit_of_mem_write hd⟩
  induction cs using template.induct with
  | case1 cs =>
    obtain ⟨d, hd, hdigit⟩ := hdigit w.process
    exact .inr ⟨List.mem_cons_self, d, by simp [hd], hdigit⟩
  | case2 cs =>
    obtain ⟨d, hd, hdigit⟩ := hdigit w.signature
    exact .inr ⟨List.mem_cons_self, d, by simp [hd], hdigit⟩
  | case3 c cs hprocess hmodule ih =>
    rw [expanded_cons hprocess hmodule]
    rcases ih with ih | ⟨hmark, d, hd, hdigit⟩
    · exact .inl (congrArg (List.cons c) ih)
    · exact .inr ⟨List.mem_cons_of_mem c hmark, d, List.mem_cons_of_mem c hd, hdigit⟩
  | case4 => exact .inl rfl

/-- What has no mark and no digit in it is what a pattern expands to only if it is the pattern. -/
theorem expanded_eq_iff {special : List Char} (hmark : '%' ∉ special)
    (hdigits : special.any isDigit = false) :
    expanded suffix w cs = special ↔ cs = special := by
  rcases expanded_cases suffix w cs with h | ⟨hcs, d, hd, hdigit⟩
  · rw [h]
  · constructor
    · rintro rfl
      exact absurd hdigit (List.any_eq_false.1 hdigits d hd)
    · rintro rfl
      exact absurd hcs hmark

theorem slash_notMem_expanded (hsuffix : '/' ∉ suffix) (hcs : '/' ∉ cs) :
    '/' ∉ expanded suffix w cs := by
  have hwrite : ∀ n, '/' ∉ write n := fun n => not_mem_write rfl
  induction cs using template.induct with
  | case1 cs ih => simp_all
  | case2 cs ih => simp_all
  | case3 c cs hprocess hmodule ih =>
    rw [expanded_cons hprocess hmodule]
    simp only [List.mem_cons, not_or] at hcs ⊢
    exact ⟨hcs.1, ih hcs.2⟩
  | case4 => exact hcs

/-! ## Pieces between slashes -/

theorem expanded_join : ∀ pieces : List (List Char), expanded suffix w (Text.join ['/'] pieces) =
    Text.join ['/'] (pieces.map (expanded suffix w))
  | [] => rfl
  | [_] => rfl
  | piece :: next :: pieces => by
    have hslash : expanded suffix w ('/' :: Text.join ['/'] (next :: pieces)) =
        '/' :: expanded suffix w (Text.join ['/'] (next :: pieces)) :=
      expanded_cons (by simp) (by simp)
    rw [Text.join, List.append_assoc, List.singleton_append,
      expanded_append (by decide) (by decide), hslash, expanded_join (next :: pieces)]
    simp [Text.join]

/-- A pattern is expanded piece by piece between its slashes. -/
theorem split_expanded (hsuffix : '/' ∉ suffix) (cs : List Char) :
    Text.split '/' (expanded suffix w cs) = (Text.split '/' cs).map (expanded suffix w) := by
  have hpieces : ∀ piece ∈ (Text.split '/' cs).map (expanded suffix w), '/' ∉ piece := by
    intro piece hpiece
    obtain ⟨piece, hmem, rfl⟩ := List.mem_map.1 hpiece
    exact slash_notMem_expanded hsuffix (Text.not_mem_of_mem_split hmem)
  have hne : (Text.split '/' cs).map (expanded suffix w) ≠ [] := by
    simpa using Text.split_ne_nil '/' cs
  conv_lhs => rw [← Text.join_split '/' cs]
  rw [expanded_join, Text.split_join hne hpieces]

theorem isAbsolute_expand {pattern : String} (h : (Path.mk pattern).isAbsolute = false)
    (suffix : String) (w : Writer) : (Path.mk (expand suffix pattern w)).isAbsolute = false := by
  have hwrite : ∀ n rest, (write n ++ rest).head? ≠ some '/' := fun n rest hhead => by
    rw [List.head?_append_of_ne_nil _ (write_ne_nil n)] at hhead
    exact not_mem_write rfl (List.mem_of_head? hhead)
  unfold Path.isAbsolute at h ⊢
  rw [toList_expand]
  generalize pattern.toList = cs at h
  cases cs using template.fun_cases with
  | case1 => exact beq_eq_false_iff_ne.2 (by rw [expanded_process]; exact hwrite _ _)
  | case2 => exact beq_eq_false_iff_ne.2 (by rw [expanded_module]; exact hwrite _ _)
  | case3 c cs hprocess hmodule => rwa [expanded_cons hprocess hmodule]
  | case4 => exact h

/-! ## Names that patterns expand to -/

variable {suffix pattern : String} {w : Writer}

theorem up_notMem_expand (hsuffix : '/' ∉ suffix.toList) (hup : .up ∉ (Path.mk pattern).parts) :
    .up ∉ (Path.mk (expand suffix pattern w)).parts := by
  rw [Path.up_mem_parts_iff] at hup ⊢
  rw [toList_expand, split_expanded hsuffix]
  intro hmem
  obtain ⟨piece, hpiece, heq⟩ := List.mem_map.1 hmem
  rw [expanded_eq_iff (by decide) (by decide)] at heq
  exact hup (heq ▸ hpiece)

theorem properPieces_expand (hsuffix : '/' ∉ suffix.toList) :
    Path.properPieces (expand suffix pattern w).toList =
      (Path.properPieces pattern.toList).map (expanded suffix.toList w) := by
  unfold Path.properPieces
  rw [toList_expand, split_expanded hsuffix, List.filter_map]
  congr 1
  refine List.filter_congr fun piece _ => ?_
  have hempty : expanded suffix.toList w piece = [] ↔ piece = [] :=
    expanded_eq_iff (by decide) (by decide)
  have hhere : expanded suffix.toList w piece = ['.'] ↔ piece = ['.'] :=
    expanded_eq_iff (by decide) (by decide)
  simp [hempty, hhere]

/-- What a pattern expands to has the names in it that the pattern has, as long as these have no
mark and no digit. -/
theorem mem_names_expand (hsuffix : '/' ∉ suffix.toList)
    (hup : .up ∉ (Path.mk pattern).parts) {n : String} (hmark : '%' ∉ n.toList)
    (hdigits : n.toList.any isDigit = false) :
    n ∈ (Path.mk (expand suffix pattern w)).names ↔ n ∈ (Path.mk pattern).names := by
  have hmem : ∀ {pieces : List (List Char)}, n ∈ pieces.map String.ofList ↔ n.toList ∈ pieces := by
    intro pieces
    constructor
    · intro h
      obtain ⟨piece, hpiece, rfl⟩ := List.mem_map.1 h
      rwa [String.toList_ofList]
    · exact fun h => List.mem_map.2 ⟨_, h, String.ofList_toList⟩
  rw [(Path.names_eq_map (up_notMem_expand hsuffix hup)).1, (Path.names_eq_map hup).1, hmem, hmem,
    properPieces_expand hsuffix]
  constructor
  · intro h
    obtain ⟨piece, hpiece, heq⟩ := List.mem_map.1 h
    exact (expanded_eq_iff hmark hdigits).1 heq ▸ hpiece
  · exact fun h => List.mem_map.2 ⟨_, h, (expanded_eq_iff hmark hdigits).2 rfl⟩

/-- The last piece of a pattern that passes the check ends in the extension, and what it expands to
does so too. -/
theorem exists_last_piece (hvalid : validatePattern pattern = .ok ()) :
    ∃ front stem, Path.properPieces pattern.toList = front ++ [stem ++ ".profraw".toList] ∧
      ∀ suffix w, expanded suffix w (stem ++ ".profraw".toList) =
        expanded suffix w stem ++ ".profraw".toList := by
  obtain ⟨-, -, hends⟩ := validatePattern_eq_ok_iff.1 hvalid
  obtain ⟨cs, hcs⟩ := Text.eq_append_of_endsWith hends
  have hslash : '/' ∉ ".profraw".toList := by decide
  obtain ⟨init, stem, -, hsplit⟩ := Text.split_append_last hslash cs
  refine ⟨init.filter fun piece => piece ≠ [] ∧ piece ≠ ['.'], stem, ?_, fun suffix w => ?_⟩
  · have hproper : stem ++ ".profraw".toList ≠ [] ∧ stem ++ ".profraw".toList ≠ ['.'] := by
      cases stem <;> simp
    rw [Path.properPieces, show pattern.toList = cs ++ ".profraw".toList from hcs, hsplit,
      List.filter_append, List.filter_cons_of_pos (by simpa using hproper), List.filter_nil]
  · have hplain : expanded suffix w ".profraw".toList = ".profraw".toList :=
      (expanded_eq_iff (by decide) (by decide)).2 rfl
    calc expanded suffix w (stem ++ ".profraw".toList)
      _ = expanded suffix w stem ++ expanded suffix w ".profraw".toList :=
        expanded_append (by decide) (by decide) _ _
      _ = expanded suffix w stem ++ ".profraw".toList := by rw [hplain]

/-! ## Collected files -/

/-- A file that stands below a directory, the last of these names behind the others, all of which
are directories. -/
structure StandsAt (t : Tree) (dir : Location) (names : List String) : Prop where
  file : ∃ bytes executable, t.entry? (dir ++ names) = some (.file bytes executable)
  through : ∀ way, way <+: names → way ≠ [] → way ≠ names → t.entry? (dir ++ way) = some .directory

theorem IsProfileAt.not_skipped {t : Tree} {dir : Location} {above : List String} {name : String}
    (h : IsProfileAt t dir above name) : "target" ∉ above ∧ ".git" ∉ above :=
  ⟨fun hmem => (h.searched _ hmem).1 rfl, fun hmem => (h.searched _ hmem).2 rfl⟩

theorem StandsAt.isProfileAt_iff {t : Tree} {dir : Location} {above : List String} {stem : String}
    (h : StandsAt t dir (above ++ [stem ++ ".profraw"])) (hstem : stem ≠ "") :
    IsProfileAt t dir above (stem ++ ".profraw") ↔ "target" ∉ above ∧ ".git" ∉ above := by
  refine ⟨IsProfileAt.not_skipped, fun ⟨htarget, hgit⟩ => ?_⟩
  refine ⟨?_, ⟨stem, hstem, rfl⟩, fun way hway hne => h.through way ?_ hne ?_, fun n hn => ?_⟩
  · simpa using h.file
  · exact hway.trans (List.prefix_append _ _)
  · rintro rfl
    simpa using hway.length_le
  · exact ⟨fun heq => htarget (heq ▸ hn), fun heq => hgit (heq ▸ hn)⟩

/-- The names that an accepted pattern expands to: the last one ends in the extension. -/
theorem names_expand (hvalid : validatePattern pattern = .ok ()) (hsuffix : '/' ∉ suffix.toList)
    (hup : .up ∉ (Path.mk pattern).parts)
    (hname : (Path.mk pattern).names.getLast? ≠ some ".profraw") :
    ∃ above stem, stem ≠ "" ∧
      (Path.mk (expand suffix pattern w)).names = above ++ [stem ++ ".profraw"] := by
  obtain ⟨front, stem, hpieces, hlast⟩ := exists_last_piece hvalid
  have hstem : stem ≠ [] := by
    rintro rfl
    refine hname ?_
    rw [(Path.names_eq_map hup).1, hpieces]
    simp
  refine ⟨(front.map (expanded suffix.toList w)).map String.ofList,
    String.ofList (expanded suffix.toList w stem), fun he => hstem ?_, ?_⟩
  · have hempty : expanded suffix.toList w stem = [] := by simpa using congrArg String.toList he
    exact (expanded_eq_iff (by simp) (by simp)).1 hempty
  · rw [(Path.names_eq_map (up_notMem_expand hsuffix hup)).1, properPieces_expand hsuffix, hpieces,
      List.map_append, List.map_append, List.map_singleton, List.map_singleton, hlast,
      String.ofList_append, String.ofList_toList]

theorem isEntryName_of_mem_names {p : Path} (hup : .up ∉ p.parts) {n : String}
    (hn : n ∈ p.names) : Path.IsEntryName n := by
  rw [(Path.names_eq_map hup).1] at hn
  obtain ⟨piece, hpiece, rfl⟩ := List.mem_map.1 hn
  obtain ⟨hmem, hproper⟩ := List.mem_filter.1 hpiece
  have hproper : piece ≠ [] ∧ piece ≠ ['.'] := by simpa using hproper
  have hne : ∀ cs : List Char, piece ≠ cs → String.ofList piece ≠ String.ofList cs :=
    fun cs h he => h (String.ofList_inj.1 he)
  have hnot : piece ≠ ['.', '.'] := fun he => hup (Path.up_mem_parts_iff.2 (he ▸ hmem))
  refine ⟨hne [] hproper.1, hne ['.'] hproper.2, hne ['.', '.'] hnot, ?_⟩
  rw [String.toList_ofList]
  exact Text.not_mem_of_mem_split hmem

/-- A path joined to a directory has the names it spells behind the parts of the directory. -/
theorem parts_join_names {root : Path} (hroot : root.text ≠ "") {q : String}
    (hrel : (Path.mk q).isAbsolute = false) (hup : .up ∉ (Path.mk q).parts) :
    (root.join q).parts = root.parts ++ (Path.mk q).names.map Part.name := by
  rw [(Path.parts_join hroot hrel).2, ← (Path.names_eq_map hup).2]

/-- A file that a relative path leads to is collected exactly if none of the directories on the way
is one that is not searched. -/
theorem mem_artifacts_iff {t : Tree} (hnamed : t.IsNamed) {root : Path} {dir : Location}
    (hdir : t.find true root = .ok (dir, .directory)) {q : String}
    (hrel : (Path.mk q).isAbsolute = false) (hup : .up ∉ (Path.mk q).parts)
    {above : List String} {stem : String} (hstem : stem ≠ "")
    (hnames : (Path.mk q).names = above ++ [stem ++ ".profraw"])
    (hfile : StandsAt t dir (Path.mk q).names) :
    (∃ p ∈ (collect t root).artifacts, p.same (root.join q) = true) ↔
      "target" ∉ above ∧ ".git" ∉ above := by
  have hroot : root.text ≠ "" := text_ne_empty_of_directoryAt? (directoryAt?_eq_some_iff.2 hdir)
  have hparts := parts_join_names hroot hrel hup
  rw [hnames] at hfile
  constructor
  · rintro ⟨p, hp, hsame⟩
    obtain ⟨names, loc, ⟨dir', above', name, -, hprofile, rfl, -⟩, rfl⟩ := mem_artifacts.1 hp
    obtain ⟨bytes, executable, hentry⟩ := hprofile.file
    have hproper : ∀ n ∈ above' ++ [name], Path.IsEntryName n := fun n hn => by
      rw [List.append_assoc] at hentry
      exact hnamed.isEntryName hentry (List.mem_append_right _ hn)
    -- paths with the same parts have the same names behind those of the directory
    rw [Path.same, beq_iff_eq, Path.parts_foldl_join hroot hproper, hparts, hnames,
      List.append_cancel_left_eq] at hsame
    have hsame := List.map_injective_iff.2 (fun _ _ => Part.name.inj) hsame
    rw [← (List.append_inj' hsame rfl).1]
    exact hprofile.not_skipped
  · intro hsearched
    have hprofile := (hfile.isProfileAt_iff hstem).2 hsearched
    refine ⟨(above ++ [stem ++ ".profraw"]).foldl Path.join root, mem_artifacts.2 ⟨_, _,
      ⟨dir, above, _, hdir, hprofile, rfl, rfl⟩, rfl⟩, ?_⟩
    rw [Path.same, beq_iff_eq, hparts, hnames, Path.parts_foldl_join hroot]
    exact fun n hn => isEntryName_of_mem_names hup (hnames ▸ hn)

end Profile

/-! ## Passing tests -/

namespace Aggregation.Task

/-- An aggregation of profiles that are there does not fail because there are none, unless the host
says so. -/
theorem ne_noProfiles_of_aggregate {σ : Type} {h : Host σ} (a : Task)
    {profiles : Profile.Collection} (hprofiles : profiles.artifacts ≠ []) {place : Path}
    (hhost : ∀ t s, (h.run (a.command profiles.root) t s).1 ≠
      .failed (.aggregation (.noProfiles place))) (w : World σ) :
    (outcome (a.aggregate h profiles) w).1 ≠
      .error (.failure (.aggregation (.noProfiles place))) := by
  rw [outcome_aggregate]
  cases hready : a.ready? profiles w.tree h.refuses with
  | error f =>
    rintro ⟨⟩
    unfold ready? at hready
    simp only [List.isEmpty_iff, hprofiles, if_false] at hready
    split at hready
    · cases hready
    · split at hready
      · cases hready
      · cases hx : a.exclusionsIn w.tree h.refuses <;> rw [hx] at hready <;> cases hready
  | ok exclusions =>
    let allowed : Halt → Prop := (· ≠ .failure (.aggregation (.noProfiles place)))
    have hspoils : Spoils h a allowed :=
      ⟨by simp [allowed], by simp [allowed], by rintro fault ⟨⟩, by simp [allowed],
        by simp [allowed]⟩
    have hissue : Stops allowed (Action.issue h (a.command profiles.root)) :=
      .issue_of_answers (fun t s f hf => by rintro ⟨⟩; exact hhost t s hf)
        (.inr (by simp [allowed]))
    intro ho
    exact stops_collectOrDiscard hspoils profiles exclusions hissue w _ _ (Prod.ext ho rfl) rfl

end Aggregation.Task

namespace Instrumentation

open Files Numeral Profile

/-- Tests that pass hand on the profiles that stand below the directory then. -/
theorem Build.eq_collect_of_test {σ : Type} {h : Host σ} {b : Build} {w w' : World σ}
    {profiles : Profile.Collection} (ho : outcome (b.test h) w = (.ok profiles, w')) :
    profiles = collect w'.tree b.directory := by
  obtain ⟨out, w₁, -, ho⟩ := outcome_bind_eq_ok.1 ho
  split at ho
  · cases ho
    rfl
  · cases ho

theorem Settings.validatePattern_of_validate {s : Settings}
    (h : s.validate = .ok ()) : validatePattern s.profilePattern = .ok () := by
  unfold validate at h
  split at h
  · cases h
  · cases hp : validatePattern s.profilePattern with
    | error fault =>
      rw [hp] at h
      cases h
    | ok => rfl

/-- Where the pattern is accepted, is relative and leads nowhere upwards, the profile that a writer
puts at the end of the expanded pattern is collected exactly if no directory in the pattern is one
that is not searched; and then tests that pass are not followed by an aggregation that finds no
profiles. -/
theorem Build.collects_expand (b : Build) (hvalid : b.settings.validate = .ok ())
    (hrel : (Path.mk b.settings.profilePattern).isAbsolute = false)
    (hup : .up ∉ (Path.mk b.settings.profilePattern).parts)
    (hname : (Path.mk b.settings.profilePattern).names.getLast? ≠ some ".profraw")
    {suffix : String} (hsuffix : '/' ∉ suffix.toList) (writer : Writer) {t : Tree}
    (hnamed : t.IsNamed) {dir : Location} (hdir : t.find true b.directory = .ok (dir, .directory))
    (hfile : StandsAt t dir (Path.mk (expand suffix b.settings.profilePattern writer)).names) :
    let place := b.directory.join (expand suffix b.settings.profilePattern writer)
    let names := (Path.mk b.settings.profilePattern).names
    ((∃ p ∈ (collect t b.directory).artifacts, p.same place = true) ↔
      "target" ∉ names ∧ ".git" ∉ names) ∧
    ("target" ∉ names ∧ ".git" ∉ names →
      ∀ (σ : Type) (h : Host σ) (a : Aggregation.Task) (w w' : World σ)
        (profiles : Profile.Collection) (root : Path),
        outcome (b.test h) w = (.ok profiles, w') → w'.tree = t →
        (∀ t s, (h.run (a.command profiles.root) t s).1 ≠
          .failed (.aggregation (.noProfiles root))) →
        (outcome (a.aggregate h profiles) w').1 ≠
          .error (.failure (.aggregation (.noProfiles root)))) := by
  intro place names
  obtain ⟨above, stem, hstem, hnames⟩ :=
    names_expand (w := writer) (Settings.validatePattern_of_validate hvalid) hsuffix hup hname
  have hcollected := mem_artifacts_iff hnamed hdir (isAbsolute_expand hrel suffix writer)
    (up_notMem_expand hsuffix hup) hstem hnames hfile
  -- a directory that is not searched has no mark in its name, so it stands in the pattern itself
  have hnot : ∀ n : String, '%' ∉ n.toList → n.toList.any isDigit = false →
      n.toList.getLast? ≠ some 'w' → (n ∈ above ↔ n ∈ names) := by
    intro n hmark hdigits hlast
    have hne : n ≠ stem ++ ".profraw" := by
      rintro rfl
      simp at hlast
    rw [← mem_names_expand (w := writer) hsuffix hup hmark hdigits, hnames]
    simp [hne]
  have htarget := hnot "target" (by decide) (by decide) (by decide)
  have hgit := hnot ".git" (by decide) (by decide) (by decide)
  rw [htarget, hgit] at hcollected
  refine ⟨hcollected, fun hsearched _ _ a _ w' _ _ ho htree hhost => ?_⟩
  obtain rfl := eq_collect_of_test ho
  refine a.ne_noProfiles_of_aggregate (fun hnone => ?_) hhost w'
  obtain ⟨p, hp, -⟩ := hcollected.2 hsearched
  rw [htree] at hnone
  rw [hnone] at hp
  cases hp

/-- A build whose profiles are to go into a directory. -/
def Build.writingTo (pattern : String) : Build :=
  ⟨{ Settings.standard with profilePattern := pattern }, ⟨"."⟩, none, 60⟩

/-- A profile in the directory `cov`: it is collected. -/
theorem Build.collects_expand_below :
    let t := ((Tree.empty []).put ["cov"] .directory).put ["cov", "x-1-12_0.profraw"] (.text "p")
    let b := writingTo "./cov/x-%p-%m.profraw"
    ∃ p ∈ (collect t b.directory).artifacts,
      p.same (b.directory.join (expand "_0" b.settings.profilePattern ⟨1, 12⟩)) = true := by
  intro t b
  have hnames : (Path.mk (expand "_0" b.settings.profilePattern ⟨1, 12⟩)).names =
      ["cov", "x-1-12_0.profraw"] := by decide +kernel
  have hfile : StandsAt t [] (Path.mk (expand "_0" b.settings.profilePattern ⟨1, 12⟩)).names := by
    rw [hnames]
    refine ⟨⟨_, _, rfl⟩, fun way hway => ?_⟩
    have hinits : ∀ way ∈ List.inits ["cov", "x-1-12_0.profraw"], way ≠ [] →
        way ≠ ["cov", "x-1-12_0.profraw"] → t.entry? ([] ++ way) = some .directory := by
      decide +kernel
    exact hinits way ((List.mem_inits _ _).2 hway)
  exact (b.collects_expand (by decide +kernel) (by decide +kernel) (by decide +kernel)
    (by decide +kernel) (by decide) ⟨1, 12⟩ (by decide +kernel) (by decide +kernel) hfile).1.2
      (by decide +kernel)

/-- A profile in the directory `target`, where the accepted pattern puts it: it is not collected. -/
theorem Build.not_collected_in_target :
    let t := (Tree.empty [])
      |>.put ["target"] .directory
      |>.put ["target", "covflow-1-12.profraw"] (.text "p")
    let b := writingTo "target/covflow-%p-%m.profraw"
    b.settings.validate = .ok () ∧ .up ∉ (Path.mk b.settings.profilePattern).parts ∧
      t.find true (b.directory.join (expand "" b.settings.profilePattern ⟨1, 12⟩)) =
        .ok (["target", "covflow-1-12.profraw"], .text "p") ∧
      (collect t b.directory).artifacts = [] := by
  decide +kernel

end Instrumentation

end CoverageRun
