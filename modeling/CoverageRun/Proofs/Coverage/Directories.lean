/-
Patterns for all that is outside the project and for whole directories of it: `/*`, and the name
of a directory with `/*` behind it. Such patterns leave out every path outside the source root and
every path strictly beneath one of the directories, at any depth, and nothing else. A pattern
compares characters; that this comes to comparing parts is because the matched path is spelled
canonically, so what the text of a directory and a slash begin, the steps of the directory begin.
-/
import CoverageRun.Proofs.Coverage.Exclusions

namespace CoverageRun

open CoverageRun.Path

/-! ## Texts of directories -/

namespace Path

/-- A text with a proper name or a step upwards before, between and behind its slashes. -/
def IsProper (d : String) : Prop := ∀ piece ∈ Text.split '/' d.toList, piece ≠ [] ∧ piece ≠ ['.']

instance (d : String) : Decidable (IsProper d) :=
  inferInstanceAs (Decidable (∀ piece ∈ Text.split '/' d.toList, piece ≠ [] ∧ piece ≠ ['.']))

theorem map_text_filterMap : ∀ {pieces : List (List Char)}, (∀ p ∈ pieces, p ≠ [] ∧ p ≠ ['.']) →
    (pieces.filterMap Part.ofPiece?).map (fun s => s.text.toList) = pieces
  | [], _ => rfl
  | piece :: pieces, h => by
    obtain ⟨hne, hdot⟩ := h piece List.mem_cons_self
    obtain ⟨s, hs⟩ : ∃ s, Part.ofPiece? piece = some s := by
      unfold Part.ofPiece?
      split <;> simp_all
    rw [List.filterMap_cons_some hs, List.map_cons, Part.text_of_ofPiece? hs,
      map_text_filterMap fun p hp => h p (List.mem_cons_of_mem piece hp)]

theorem IsProper.steps {d : String} (h : IsProper d) : (Path.mk d).steps = stepsIn d.toList := by
  have hrel : (Path.mk d).isAbsolute = false := by
    refine Bool.eq_false_iff.2 fun habs => ?_
    have hfirst := Text.head?_split_of_head? (eq_of_beq habs)
    exact (h [] (List.mem_of_head? hfirst)).1 rfl
  rw [steps_eq, hrel]
  rfl

/-- A proper text is what its steps spell. -/
theorem IsProper.toList_eq {d : String} (h : IsProper d) :
    d.toList = Text.join ['/'] ((Path.mk d).steps.map fun s => s.text.toList) := by
  rw [h.steps, stepsIn, map_text_filterMap h, Text.join_split]

theorem IsProper.steps_ne_nil {d : String} (h : IsProper d) : (Path.mk d).steps ≠ [] := by
  intro hnil
  have hpieces := map_text_filterMap h
  rw [h.steps, stepsIn] at hnil
  rw [hnil] at hpieces
  exact Text.split_ne_nil _ _ hpieces.symm

/-- Steps that lead from a directory to something beneath it. -/
def Beneath (dir below : List Part) : Prop := ∃ more, more ≠ [] ∧ below = dir ++ more

/-- The spelling of steps begins with a proper text and a slash exactly if they lead to something
beneath what the text names. -/
theorem slash_prefix_iff {d : String} (hd : IsProper d) {below : List Part}
    (hbelow : ∀ s ∈ below, s.IsStep) :
    (d ++ "/").toList <+: (ofParts below).text.toList ↔ Beneath (Path.mk d).steps below := by
  have htext : (ofParts below).text.toList =
      Text.join ['/'] (below.map fun s => s.text.toList) := by
    rw [ofParts_of_isStep hbelow, Text.joinText, String.toList_ofList, List.map_map]
    rfl
  rw [String.toList_append, show "/".toList = ['/'] from rfl]
  constructor
  · rintro ⟨rest, hrest⟩
    rw [List.append_assoc, List.singleton_append] at hrest
    have hsteps : below = stepsIn d.toList ++ stepsIn rest := by
      rw [← stepsIn_append, hrest, ofParts_of_isStep hbelow, stepsIn_joinText hbelow]
    refine ⟨stepsIn rest, fun hnil => ?_, by rw [hd.steps]; exact hsteps⟩
    -- the spelling of the directory itself has no slash behind it
    rw [hnil, List.append_nil, ← hd.steps] at hsteps
    rw [htext, hsteps, ← hd.toList_eq] at hrest
    simpa using congrArg List.length hrest
  · rintro ⟨more, hmore, rfl⟩
    have hdir : (Path.mk d).steps.map (fun s => s.text.toList) ≠ [] := by
      simpa using hd.steps_ne_nil
    rw [htext, List.map_append, Text.join_append _ hdir (by simpa using hmore), ← hd.toList_eq]
    exact List.prefix_append _ _

end Path

/-! ## Beginnings as patterns -/

namespace Coverage.Exclusions

theorem hits_beginning (p : Path) (label : String) {lead : String} (h : lead ≠ "") :
    hits p ⟨label, (Glob.Simple.beginning lead).tokens⟩ = true ↔ lead.toList <+: p.text.toList := by
  rw [hits, Glob.Simple.isAboutName_beginning h, Bool.and_false, Bool.not_false, Bool.and_true]
  exact Glob.accepts_starred label lead p.text

/-- Where every pattern is a beginning with a star behind it, what begins with one of them is left
out. -/
theorem excludes_beginnings (t : Files.Tree) (root : Path) {leads patterns : List String}
    (hleads : ∀ lead ∈ leads, lead ≠ "" ∧ Glob.IsPlain lead)
    (hpatterns : ∀ text, text ∈ patterns ↔ ∃ lead ∈ leads, text = lead ++ "*") :
    ∃ ps, make t root patterns = .ok ⟨root.normalise, t.canonical? root, ps⟩ ∧
      ∀ p, (Exclusions.mk root.normalise (t.canonical? root) ps).excludes p = true ↔ ∃ lead ∈ leads,
        lead.toList <+:
          ((Exclusions.mk root.normalise (t.canonical? root) ps).candidate p).text.toList := by
  have hparse : ∀ lead ∈ leads, Glob.Pattern.parse (lead ++ "*") =
      .ok ⟨lead ++ "*", (Glob.Simple.beginning lead).tokens⟩ := fun lead hlead =>
    Glob.Simple.parse_text (p := .beginning lead) (hleads lead hlead).2
  obtain ⟨ps, hmake, hmem⟩ := make_of_valid t root fun text htext => by
    obtain ⟨lead, hlead, rfl⟩ := (hpatterns text).1 htext
    exact ⟨_, hparse lead hlead⟩
  refine ⟨ps, hmake, fun p => ?_⟩
  rw [excludes_iff hmem]
  constructor
  · rintro ⟨text, htext, pattern, hread, hhits⟩
    obtain ⟨lead, hlead, rfl⟩ := (hpatterns text).1 htext
    rw [hparse lead hlead] at hread
    cases hread
    exact ⟨lead, hlead, (hits_beginning _ _ (hleads lead hlead).1).1 hhits⟩
  · rintro ⟨lead, hlead, hprefix⟩
    refine ⟨_, (hpatterns _).2 ⟨lead, hlead, rfl⟩, _, hparse lead hlead, ?_⟩
    exact (hits_beginning _ _ (hleads lead hlead).1).2 hprefix

/-! ## Inside and outside -/

/-- The steps of a path as seen from a source root: those that it has below the root, and all of
them if it does not start at the root of the tree. -/
def SeenFrom (root p : Path) (below : List Part) : Prop :=
  p.steps = root.steps ++ below ∨ p.isAbsolute = false ∧ p.steps = below

theorem SeenFrom.isStep {root p : Path} {below : List Part} (hroot : root.isAbsolute = true)
    (h : SeenFrom root p below) : ∀ s ∈ below, s.IsStep := by
  intro s hs
  rcases h with hbelow | ⟨hrel, rfl⟩
  · have habs : p.isAbsolute = true := by
      rw [isAbsolute_iff, hbelow]
      exact List.mem_append_left _ (isAbsolute_iff.1 hroot)
    -- the one part that is no step stands first in both paths
    rw [steps_eq, steps_eq, if_pos habs, if_pos hroot, List.append_assoc] at hbelow
    have hmem : s ∈ stepsIn p.text.toList := by
      rw [List.append_cancel_left hbelow]
      exact List.mem_append_right _ hs
    exact isStep_of_mem_stepsIn hmem
  · rw [steps_eq, hrel] at hs
    exact isStep_of_mem_stepsIn hs

theorem candidate_of_seenFrom {root p : Path} {canonical : Option Path} {ps : List Glob.Pattern}
    {below : List Part} (hroot : root.isAbsolute = true) (h : SeenFrom root p below) :
    (Exclusions.mk root.normalise canonical ps).candidate p = ofParts below := by
  rcases h with hbelow | ⟨hrel, rfl⟩
  · refine candidate_of_spelled ?_ hbelow
    rw [isAbsolute_iff, hbelow]
    exact List.mem_append_left _ (isAbsolute_iff.1 hroot)
  · exact candidate_of_relative _ hrel

theorem candidate_of_outside {root p : Path} {canonical : Option Path} {ps : List Glob.Pattern}
    (hroot : root.isAbsolute = true) (hcanonical : ∀ c, canonical = some c → c.parts = root.parts)
    (h : ¬ root.steps <+: p.steps) :
    (Exclusions.mk root.normalise canonical ps).candidate p = p.normalise := by
  have hroots : ∀ r ∈ (Exclusions.mk root.normalise canonical ps).roots,
      r.partsAfter? p.normalise = none := by
    intro r hr
    have hparts : r.parts = root.steps := by
      rcases List.mem_cons.1 hr with rfl | hr
      · exact parts_normalise root
      · rw [hcanonical r (Option.mem_toList.1 hr), parts_of_isAbsolute hroot]
    unfold partsAfter?
    rw [hparts, parts_normalise, if_neg (by simpa using h)]
  unfold candidate
  simp only [List.findSome?_eq_none_iff.2 hroots, ite_self]

/-- A path is outside a source root, or is seen from it in one way. -/
theorem outside_or_seenFrom (root p : Path) :
    (p.isAbsolute = true ∧ ¬ root.steps <+: p.steps) ∨ ∃ below, SeenFrom root p below := by
  cases habs : p.isAbsolute with
  | false => exact .inr ⟨p.steps, .inr ⟨habs, rfl⟩⟩
  | true =>
    by_cases hprefix : root.steps <+: p.steps
    · obtain ⟨below, hbelow⟩ := hprefix
      exact .inr ⟨below, .inl hbelow.symm⟩
    · exact .inl ⟨rfl, hprefix⟩

theorem slash_prefix_of_isAbsolute_iff {p : Path} :
    "/".toList <+: p.text.toList ↔ p.isAbsolute = true := by
  unfold isAbsolute
  rw [show "/".toList = ['/'] from rfl]
  cases p.text.toList with
  | nil => simp
  | cons c cs =>
    rw [List.cons_prefix_cons, List.head?_cons, Option.some_beq_some, beq_iff_eq, eq_comm]
    simp

/-- With `/*` and the names of directories, each with `/*` behind it, as patterns, what is left
out is all that is outside the source root and all that is strictly beneath one of the
directories. -/
theorem excludes_directories_iff (t : Files.Tree) (root : Path) (dirs patterns : List String)
    (hroot : root.isAbsolute = true)
    (hcanonical : ∀ c, t.canonical? root = some c → c.parts = root.parts)
    (hdirs : ∀ d ∈ dirs, Glob.IsPlain d ∧ IsProper d)
    (hpatterns : ∀ text, text ∈ patterns ↔ text = "/*" ∨ ∃ d ∈ dirs, text = d ++ "/*") :
    ∃ x, make t root patterns = .ok x ∧ ∀ p : Path, x.excludes p = true ↔
      (p.isAbsolute = true ∧ ¬ root.steps <+: p.steps) ∨
        ∃ below, SeenFrom root p below ∧ ∃ d ∈ dirs, Beneath (Path.mk d).steps below := by
  have hleads : ∀ lead ∈ "/" :: dirs.map (· ++ "/"), lead ≠ "" ∧ Glob.IsPlain lead := by
    intro lead hlead
    rcases List.mem_cons.1 hlead with rfl | hlead
    · decide
    · obtain ⟨d, hd, rfl⟩ := List.mem_map.1 hlead
      refine ⟨fun he => by simpa using congrArg String.toList he, fun c hc => ?_⟩
      rw [String.toList_append, List.mem_append] at hc
      rcases hc with hc | hc
      · exact (hdirs d hd).1 c hc
      · rw [List.mem_singleton.1 hc]
        decide
  obtain ⟨ps, hmake, hexcludes⟩ := excludes_beginnings t root hleads fun text => by
    rw [hpatterns]
    simp [String.append_assoc]
  refine ⟨_, hmake, fun p => ?_⟩
  rw [hexcludes]
  constructor
  · rintro ⟨lead, hlead, hprefix⟩
    rcases outside_or_seenFrom root p with hout | ⟨below, hbelow⟩
    · exact .inl hout
    rw [candidate_of_seenFrom hroot hbelow] at hprefix
    have hsteps := hbelow.isStep hroot
    rcases List.mem_cons.1 hlead with rfl | hlead
    · -- what is seen from the source root does not start at the root of the tree
      have habs := isAbsolute_iff.1 (slash_prefix_of_isAbsolute_iff.1 hprefix)
      rw [steps_ofParts (isRoute_of_isStep hsteps)] at habs
      exact absurd rfl (hsteps _ habs).ne_root
    · obtain ⟨d, hd, rfl⟩ := List.mem_map.1 hlead
      exact .inr ⟨below, hbelow, d, hd, (slash_prefix_iff (hdirs d hd).2 hsteps).1 hprefix⟩
  · rintro (⟨habs, hout⟩ | ⟨below, hbelow, d, hd, hbeneath⟩)
    · -- a path outside stays as it is, and begins with a slash
      refine ⟨"/", List.mem_cons_self, slash_prefix_of_isAbsolute_iff.2 ?_⟩
      rw [candidate_of_outside hroot hcanonical hout, isAbsolute_of_steps_eq (steps_normalise p)]
      exact habs
    · refine ⟨d ++ "/", List.mem_cons_of_mem _ (List.mem_map_of_mem hd), ?_⟩
      rw [candidate_of_seenFrom hroot hbelow]
      exact (slash_prefix_iff (hdirs d hd).2 (hbelow.isStep hroot)).2 hbeneath

/-- Around `/w` and `tests`: a directory whose name only begins like that of the root is outside,
what is deep in `tests` is left out under both spellings, and `src/tests` and `tests` itself stay.
-/
theorem excludes_directories_lookalikes :
    let t := Files.Tree.empty ["w"]
    let patterns := ["/*", "tests/*", "../x/*"]
    (Path.mk "/w").isAbsolute = true ∧
      (∀ c, t.canonical? ⟨"/w"⟩ = some c → c.parts = (Path.mk "/w").parts) ∧
      (∀ d ∈ ["tests", "../x"], Glob.IsPlain d ∧ IsProper d) ∧
      (∀ text, text ∈ patterns ↔ text = "/*" ∨ ∃ d ∈ ["tests", "../x"], text = d ++ "/*") ∧
      ∃ x, make t ⟨"/w"⟩ patterns = .ok x ∧
        x.excludes ⟨"/wide/lib.rs"⟩ = true ∧ x.excludes ⟨"/w/./tests//a/b.rs"⟩ = true ∧
        x.excludes ⟨"tests/a/b.rs"⟩ = true ∧ x.excludes ⟨"src/tests/a.rs"⟩ = false ∧
        x.excludes ⟨"/w/tests"⟩ = false := by
  intro t patterns
  have hroot : (Path.mk "/w").isAbsolute = true := by decide +kernel
  have hcanonical : ∀ c, t.canonical? ⟨"/w"⟩ = some c → c.parts = (Path.mk "/w").parts := by
    intro c hc
    rw [show t.canonical? ⟨"/w"⟩ = some ⟨"/w"⟩ by decide +kernel] at hc
    rw [← Option.some.inj hc]
  have hdirs : ∀ d ∈ ["tests", "../x"], Glob.IsPlain d ∧ IsProper d := by decide +kernel
  have hpatterns : ∀ text, text ∈ patterns ↔
      text = "/*" ∨ ∃ d ∈ ["tests", "../x"], text = d ++ "/*" := by
    intro text
    simp only [patterns, List.mem_cons, List.not_mem_nil, or_false, exists_eq_or_imp,
      exists_eq_left]
    rfl
  obtain ⟨x, hx, hexcludes⟩ :=
    excludes_directories_iff t ⟨"/w"⟩ _ _ hroot hcanonical hdirs hpatterns
  have hw : (Path.mk "/w").steps = [.root, .name "w"] := by decide +kernel
  have htests : (Path.mk "tests").steps = [.name "tests"] := by decide +kernel
  have hx' : (Path.mk "../x").steps = [.up, .name "x"] := by decide +kernel
  have hsrc : (Path.mk "src/tests/a.rs").steps = [.name "src", .name "tests", .name "a.rs"] := by
    decide +kernel
  have hself : (Path.mk "/w/tests").steps = [.root, .name "w", .name "tests"] := by decide +kernel
  refine ⟨hroot, hcanonical, hdirs, hpatterns, x, hx, ?_, ?_, ?_, ?_, ?_⟩
  · exact (hexcludes _).2 (.inl (by decide +kernel))
  · exact (hexcludes _).2 (.inr ⟨[.name "tests", .name "a", .name "b.rs"], .inl (by decide +kernel),
      "tests", by simp, [.name "a", .name "b.rs"], by decide +kernel, by decide +kernel⟩)
  · exact (hexcludes _).2 (.inr ⟨[.name "tests", .name "a", .name "b.rs"], .inr (by decide +kernel),
      "tests", by simp, [.name "a", .name "b.rs"], by decide +kernel, by decide +kernel⟩)
  · refine Bool.eq_false_iff.2 fun hexcluded => ?_
    rcases (hexcludes _).1 hexcluded with ⟨habs, -⟩ | ⟨below, hbelow, d, hd, more, -, rfl⟩
    · exact absurd habs (by decide +kernel)
    · rcases List.mem_cons.1 hd with rfl | hd
      · simp [SeenFrom, hsrc, hw, htests] at hbelow
      · rw [List.mem_singleton.1 hd] at hbelow
        simp [SeenFrom, hsrc, hw, hx'] at hbelow
  · refine Bool.eq_false_iff.2 fun hexcluded => ?_
    rcases (hexcludes _).1 hexcluded with ⟨-, hout⟩ | ⟨below, hbelow, d, hd, more, hmore, rfl⟩
    · exact hout (by decide +kernel)
    · rcases List.mem_cons.1 hd with rfl | hd
      · simp_all [SeenFrom]
      · rw [List.mem_singleton.1 hd] at hbelow
        simp [SeenFrom, hself, hw, hx'] at hbelow

end Coverage.Exclusions

end CoverageRun
