/-
Which spelling of a file decides whether it is left out. Paths of the same steps are matched
alike. A path below the source root is seen from the first root it begins with, the root as it is
spelled being tried before the root as the tree knows it: a path that is joined to a source root
from the root of the tree is matched as it was before. So both spellings of a file, from the root
of the tree and as seen from the source root, get one answer from all patterns exactly where the
spelled root does not come first without being the same place.
-/
import CoverageRun.Coverage.Exclusions
import CoverageRun.Proofs.Glob.Simple
import CoverageRun.Proofs.Path

namespace CoverageRun

open CoverageRun.Path

namespace Files.Tree

theorem isAbsolute_of_canonical? {t : Tree} {p c : Path} (h : t.canonical? p = some c) :
    c.isAbsolute = true := by
  unfold canonical? at h
  split at h
  · cases h
    unfold isAbsolute pathOf
    rw [String.toList_append]
    rfl
  · cases h

end Files.Tree

namespace Coverage.Exclusions

/-! ## Making -/

theorem readPatterns_of_valid : ∀ {texts : List String},
    (∀ text ∈ texts, ∃ p, Glob.Pattern.parse text = .ok p) →
    ∃ ps, readPatterns texts = .ok ps ∧
      ∀ p, p ∈ ps ↔ ∃ text ∈ texts, Glob.Pattern.parse text = .ok p
  | [], _ => ⟨[], rfl, by simp⟩
  | text :: texts, h => by
    obtain ⟨p, hp⟩ := h text List.mem_cons_self
    obtain ⟨ps, hps, hmem⟩ := readPatterns_of_valid fun s hs => h s (List.mem_cons_of_mem text hs)
    refine ⟨p :: ps, by rw [readPatterns, hp, hps]; rfl, fun q => ?_⟩
    simp only [List.mem_cons, hmem, exists_eq_or_imp, hp, Except.ok.injEq]
    rw [eq_comm]

theorem make_of_valid (t : Files.Tree) (root : Path) {patterns : List String}
    (h : ∀ text ∈ patterns, ∃ p, Glob.Pattern.parse text = .ok p) :
    ∃ ps, make t root patterns = .ok ⟨root.normalise, t.canonical? root, ps⟩ ∧
      ∀ p, p ∈ ps ↔ ∃ text ∈ patterns, Glob.Pattern.parse text = .ok p := by
  obtain ⟨ps, hps, hmem⟩ := readPatterns_of_valid h
  exact ⟨ps, by rw [make, hps], hmem⟩

theorem readPatterns_eq_ok_iff : ∀ {texts : List String} {ps : List Glob.Pattern},
    readPatterns texts = .ok ps ↔ texts.map Glob.Pattern.parse = ps.map .ok
  | [], ps => by
    simp only [readPatterns, Except.ok.injEq, List.map_nil]
    exact ⟨by rintro rfl; rfl, fun h => (List.map_eq_nil_iff.1 h.symm).symm⟩
  | text :: texts, ps => by
    unfold readPatterns
    cases hparse : Glob.Pattern.parse text with
    | error fault => cases ps <;> simp [hparse]
    | ok p =>
      have ih := @readPatterns_eq_ok_iff texts
      cases hrest : readPatterns texts with
      | error fault =>
        cases ps with
        | nil => simp [Except.map]
        | cons q qs => simp [Except.map, hparse, ← ih, hrest]
      | ok rest =>
        cases ps with
        | nil => simp [Except.map]
        | cons q qs => simp [Except.map, hparse, ← ih, hrest]

/-- Reading patterns stops at the first that is none. -/
theorem readPatterns_eq_error_iff : ∀ {texts : List String} {fault : Fault},
    readPatterns texts = .error fault ↔
      ∃ before text after cause, texts = before ++ text :: after ∧
        (∀ s ∈ before, ∃ p, Glob.Pattern.parse s = .ok p) ∧
        Glob.Pattern.parse text = .error cause ∧ fault = ⟨text, .malformed cause⟩
  | [], fault => by simp [readPatterns]
  | text :: texts, fault => by
    have ih := @readPatterns_eq_error_iff texts fault
    unfold readPatterns
    constructor
    · intro h
      split at h
      · rename_i cause hparse
        cases h
        exact ⟨[], text, texts, cause, rfl, by simp, hparse, rfl⟩
      · rename_i p hparse
        cases hrest : readPatterns texts <;> rw [hrest] at h <;> cases h
        obtain ⟨before, text', after, cause, rfl, hbefore, htext, rfl⟩ := ih.1 hrest
        refine ⟨text :: before, text', after, cause, rfl, fun s hs => ?_, htext, rfl⟩
        rcases List.mem_cons.1 hs with rfl | hs
        · exact ⟨p, hparse⟩
        · exact hbefore s hs
    · rintro ⟨before, text', after, cause, heq, hbefore, htext, rfl⟩
      cases before with
      | nil =>
        cases heq
        simp [htext]
      | cons s before =>
        rw [List.cons_append] at heq
        cases heq
        obtain ⟨p, hp⟩ := hbefore text List.mem_cons_self
        have hrest := ih.2 ⟨before, text', after, cause, rfl,
          fun s hs => hbefore s (List.mem_cons_of_mem text hs), htext, rfl⟩
        simp [hp, hrest, Except.map]

/-- Exclusion patterns that cannot be used, with the text and the reason that are told of them: the
first of them that is none, or all where each is one and the set of them is refused. -/
inductive Unusable (refuses : List Glob.Pattern → Option String) (texts : List String) :
    String → String → Prop
  | malformed (before after : List String) {text : String} {fault : Glob.Fault} :
    texts = before ++ text :: after → (∀ s ∈ before, ∃ p, Glob.Pattern.parse s = .ok p) →
    Glob.Pattern.parse text = .error fault → Unusable refuses texts text (fault.message text)
  | refused {ps : List Glob.Pattern} {reason : String} :
    texts.map Glob.Pattern.parse = ps.map .ok → refuses ps = some reason →
    Unusable refuses texts (Text.joinText ", " texts) reason

/-- No exclusions are made of patterns exactly if they cannot be used. -/
theorem make_eq_error_iff {t : Files.Tree} {root : Path} {texts : List String}
    {refuses : List Glob.Pattern → Option String} {pattern reason : String} :
    (∃ fault, make t root texts refuses = .error fault ∧ fault.pattern = pattern ∧
        fault.cause.message fault.pattern = reason) ↔
      Unusable refuses texts pattern reason := by
  constructor
  · rintro ⟨fault, hmake, rfl, rfl⟩
    unfold make at hmake
    split at hmake
    · rename_i fault' hread
      cases hmake
      obtain ⟨before, text, after, cause, htexts, hbefore, htext, rfl⟩ :=
        readPatterns_eq_error_iff.1 hread
      exact .malformed before after htexts hbefore htext
    · rename_i ps hread
      split at hmake <;> cases hmake
      rename_i reason hreason
      exact .refused (readPatterns_eq_ok_iff.1 hread) hreason
  · intro h
    cases h with
    | malformed before after htexts hbefore htext =>
      have hread := readPatterns_eq_error_iff.2 ⟨before, _, after, _, htexts, hbefore, htext, rfl⟩
      exact ⟨⟨_, .malformed _⟩, by rw [make, hread], rfl, rfl⟩
    | refused hread hreason =>
      refine ⟨⟨Text.joinText ", " texts, .refused _⟩, ?_, rfl, rfl⟩
      rw [make, readPatterns_eq_ok_iff.2 hread]
      simp only [hreason]

theorem make_eq_ok {t : Files.Tree} {root : Path} {patterns : List String}
    {refuses : List Glob.Pattern → Option String} {x : Exclusions}
    (h : make t root patterns refuses = .ok x) :
    ∃ ps, readPatterns patterns = .ok ps ∧ x = ⟨root.normalise, t.canonical? root, ps⟩ := by
  unfold make at h
  split at h
  · cases h
  · rename_i ps hps
    split at h <;> cases h
    exact ⟨ps, hps, rfl⟩

/-! ## What is matched -/

theorem candidate_of_relative (x : Exclusions) {p : Path} (h : p.isAbsolute = false) :
    x.candidate p = p.normalise := by
  have hn : p.normalise.isAbsolute = false :=
    (isAbsolute_of_steps_eq (steps_normalise p)).trans h
  simp [candidate, hn]

theorem candidate_congr (x : Exclusions) {p q : Path} (h : p.steps = q.steps) :
    x.candidate p = x.candidate q := by
  have hnormal : p.normalise = q.normalise := congrArg ofParts h
  unfold candidate
  rw [hnormal]

/-- A path from the root of the tree that begins with the spelled root is matched as seen from it.
-/
theorem candidate_of_spelled {root p : Path} {canonical : Option Path} {ps : List Glob.Pattern}
    {below : List Part} (habs : p.isAbsolute = true) (hp : p.steps = root.steps ++ below) :
    (Exclusions.mk root.normalise canonical ps).candidate p = ofParts below := by
  have hnormal : p.normalise.isAbsolute = true :=
    (isAbsolute_of_steps_eq (steps_normalise p)).trans habs
  have hspelled : root.normalise.partsAfter? p.normalise = some below := by
    unfold partsAfter?
    rw [parts_normalise, parts_normalise, hp, if_pos (by simp), List.drop_left]
  unfold candidate roots
  simp only [hnormal, if_true, List.findSome?_cons, hspelled]

/-- A path from the root that lies below the source root, as the tree knows it, is matched as seen
from the spelled root where it begins with that, and else from the source root. -/
theorem candidate_of_under {root c p : Path} {ps : List Glob.Pattern} {below : List Part}
    (hc : c.isAbsolute = true) (hp : p.steps = c.steps ++ below) :
    (Exclusions.mk root.normalise (some c) ps).candidate p =
      if root.steps <+: p.steps then ofParts (p.steps.drop root.steps.length) else ofParts below := by
  have habs : p.normalise.isAbsolute = true := by
    rw [isAbsolute_iff, steps_normalise, hp]
    exact List.mem_append_left _ (isAbsolute_iff.1 hc)
  have hcanonical : c.partsAfter? p.normalise = some below := by
    unfold partsAfter?
    rw [parts_of_isAbsolute hc, parts_normalise, hp, if_pos (by simp), List.drop_left]
  unfold candidate roots
  simp only [habs, if_true, Option.toList, List.findSome?_cons, hcanonical]
  unfold partsAfter?
  rw [parts_normalise, parts_normalise]
  by_cases hroot : root.steps <+: p.steps
  · simp [hroot]
  · simp [hroot]

theorem excludes_iff {x : Exclusions} {patterns : List String}
    (h : ∀ pattern, pattern ∈ x.patterns ↔
      ∃ text ∈ patterns, Glob.Pattern.parse text = .ok pattern) (p : Path) :
    x.excludes p = true ↔ ∃ text ∈ patterns, ∃ pattern,
      Glob.Pattern.parse text = .ok pattern ∧ hits (x.candidate p) pattern = true := by
  rw [excludes, List.any_eq_true]
  constructor
  · rintro ⟨pattern, hmem, hhits⟩
    obtain ⟨text, htext, hparse⟩ := (h pattern).1 hmem
    exact ⟨text, htext, pattern, hparse, hhits⟩
  · rintro ⟨text, htext, pattern, hparse, hhits⟩
    exact ⟨pattern, (h pattern).2 ⟨text, htext, hparse⟩, hhits⟩

theorem excludes_of_candidate_eq {x : Exclusions} {p q : Path} (h : x.candidate p = x.candidate q) :
    x.excludes p = x.excludes q := by
  unfold excludes
  rw [h]

theorem isAbsolute_false_of_names {q : Path} (hq : ∀ s ∈ q.steps, ∃ name, s = .name name) :
    q.isAbsolute = false := by
  refine Bool.eq_false_iff.2 fun habs => ?_
  obtain ⟨name, hname⟩ := hq _ (isAbsolute_iff.1 habs)
  cases hname

/-- Some pattern tells a file below the source root from all that is not matched like it. -/
theorem exists_telling (t : Files.Tree) (root : Path) {q : Path}
    (hq : ∀ s ∈ q.steps, ∃ name, s = .name name) :
    ∃ patterns x, make t root patterns = .ok x ∧ x.excludes q = true ∧
      ∀ p, x.excludes p = true → x.candidate p = q.normalise := by
  have hrel : q.isAbsolute = false := isAbsolute_false_of_names hq
  have hlast : endsUpwards q.normalise = false := by
    unfold endsUpwards
    rw [parts_normalise]
    refine Bool.eq_false_iff.2 fun hup => ?_
    obtain ⟨name, hname⟩ := hq _ (List.mem_of_getLast? (eq_of_beq hup))
    cases hname
  have hmake : make t root [Glob.escaped q.normalise.text] = .ok ⟨root.normalise, t.canonical? root,
      [⟨Glob.escaped q.normalise.text, q.normalise.text.toList.map .literal⟩]⟩ := by
    unfold make readPatterns
    rw [Glob.parse_escaped]
    rfl
  refine ⟨_, _, hmake, ?_, fun p hp => ?_⟩
  · rw [excludes, candidate_of_relative _ hrel, List.any_cons, hits, hlast,
      (Glob.accepts_literals _ _ _).2 rfl]
    rfl
  · rw [excludes, List.any_cons, List.any_nil, Bool.or_false, hits, Bool.and_eq_true,
      Glob.accepts_literals] at hp
    exact congrArg Path.mk hp.1

/-! ## Spellings -/

/-- A relative path is left out if a pattern hits its parts. Below a source root from the root of
the tree, a path is left out as it is when seen from there; and paths that have the same steps are
left out alike, whatever the root. -/
theorem excludes_spelling (t : Files.Tree) (root : Path) (patterns : List String)
    (hvalid : ∀ text ∈ patterns, ∃ p, Glob.Pattern.parse text = .ok p) :
    ∃ x, make t root patterns = .ok x ∧
      (∀ q : Path, q.isAbsolute = false →
        (x.excludes q = true ↔ ∃ text ∈ patterns, ∃ pattern,
          Glob.Pattern.parse text = .ok pattern ∧ hits (ofParts q.steps) pattern = true)) ∧
      (root.isAbsolute = true → ∀ q : Path, q.isAbsolute = false →
        x.excludes (root.join q.text) = x.excludes q) ∧
      ∀ p q : Path, p.steps = q.steps → x.excludes p = x.excludes q := by
  obtain ⟨ps, hmake, hmem⟩ := make_of_valid t root hvalid
  refine ⟨_, hmake, fun q hq => ?_, fun hroot q hq => excludes_of_candidate_eq ?_,
    fun p q hsteps => excludes_of_candidate_eq (candidate_congr _ hsteps)⟩
  · rw [excludes_iff hmem, candidate_of_relative _ hq]
    rfl
  -- the joined path begins with the root as it is spelled, which is tried first
  have hjoin : (root.join q.text).steps = root.steps ++ q.steps := by
    rw [steps_join, if_neg (Bool.eq_false_iff.1 hq)]
  have habs : (root.join q.text).isAbsolute = true := by
    rw [isAbsolute_iff, hjoin]
    exact List.mem_append_left _ (isAbsolute_iff.1 hroot)
  rw [candidate_of_spelled habs hjoin, candidate_of_relative _ hq]
  rfl

/-- Below `/w//../v/`, which leads nowhere, a path with steps upwards, dots and slashes to spare
is left out under every spelling. -/
theorem excludes_spelling_detour :
    let t := Files.Tree.empty ["w"]
    (∀ text ∈ ["tests/*"], ∃ p, Glob.Pattern.parse text = .ok p) ∧
      ∃ x, make t ⟨"/w//../v/"⟩ ["tests/*"] = .ok x ∧
        x.excludes ⟨"tests/.//../a/"⟩ = true ∧
        x.excludes (Path.join ⟨"/w//../v/"⟩ "tests/.//../a/") = true ∧
        x.excludes ⟨"./tests/../a"⟩ = true := by
  intro t
  have hparse : Glob.Pattern.parse "tests/*" =
      .ok ⟨"tests/*", (Glob.Simple.beginning "tests/").tokens⟩ :=
    Glob.Simple.parse_text (p := .beginning "tests/") (by decide)
  have hvalid : ∀ text ∈ ["tests/*"], ∃ p, Glob.Pattern.parse text = .ok p := by
    intro text htext
    rw [List.mem_singleton.1 htext]
    exact ⟨_, hparse⟩
  obtain ⟨x, hx, hhit, hjoin, hsame⟩ := excludes_spelling t ⟨"/w//../v/"⟩ ["tests/*"] hvalid
  have hleft : x.excludes ⟨"tests/.//../a/"⟩ = true :=
    (hhit _ (by decide +kernel)).2 ⟨_, List.mem_cons_self, _, hparse, by decide +kernel⟩
  refine ⟨hvalid, x, hx, hleft, ?_, ?_⟩
  · exact (hjoin (by decide +kernel) _ (by decide +kernel)).trans hleft
  · exact (hsame _ _ (by decide +kernel)).trans hleft

/-- A file below the source root is left out under both its spellings or under neither, whatever the
patterns, if and only if the source root as it is spelled leads to the root as the tree knows it
wherever the file's spelling from the root of the tree begins with it. -/
theorem excludes_join_iff (t : Files.Tree) (root c q : Path) (hc : t.canonical? root = some c)
    (hq : ∀ s ∈ q.steps, ∃ name, s = .name name) :
    (∀ patterns x, make t root patterns = .ok x → x.excludes (c.join q.text) = x.excludes q) ↔
      (root.steps <+: (c.join q.text).steps → root.steps = c.steps) := by
  have hrel : q.isAbsolute = false := isAbsolute_false_of_names hq
  have habs : c.isAbsolute = true := Files.Tree.isAbsolute_of_canonical? hc
  have hjoin : (c.join q.text).steps = c.steps ++ q.steps := by
    rw [steps_join, if_neg (Bool.eq_false_iff.1 hrel)]
  constructor
  · intro hall hroot
    obtain ⟨patterns, x, hx, hexcl, htells⟩ := exists_telling t root hq
    have hsame : x.candidate (c.join q.text) = q.normalise :=
      htells _ ((hall patterns x hx).trans hexcl)
    obtain ⟨ps, -, rfl⟩ := make_eq_ok hx
    rw [hc, candidate_of_under habs hjoin, if_pos hroot] at hsame
    have hdrop : (c.join q.text).steps.drop root.steps.length = q.steps :=
      ofParts_inj ((isRoute_steps _).drop _) (isRoute_steps q) hsame
    -- Two beginnings of one list that leave the same are the same.
    have hlen : root.steps.length = c.steps.length := by
      have hle := hroot.length_le
      have := congrArg List.length hdrop
      rw [hjoin] at hle this
      rw [List.length_drop] at this
      rw [List.length_append] at hle this
      omega
    have hc' : c.steps <+: (c.join q.text).steps := hjoin ▸ List.prefix_append _ _
    exact (List.prefix_of_prefix_length_le hroot hc' (Nat.le_of_eq hlen)).eq_of_length hlen
  · intro h patterns x hx
    refine excludes_of_candidate_eq ?_
    obtain ⟨ps, -, rfl⟩ := make_eq_ok hx
    rw [hc, candidate_of_relative _ hrel, candidate_of_under habs hjoin]
    split
    · rename_i hroot
      rw [h hroot, hjoin, List.drop_left]
      rfl
    · rfl

/-- Spelled from the root of the tree, the source root is one place under both spellings, and every
pattern treats a file's spellings alike. -/
theorem excludes_join_of_spelled_root :
    let t := Files.Tree.empty ["w"]
    t.canonical? ⟨"/w"⟩ = some ⟨"/w"⟩ ∧
      ∀ patterns x, make t ⟨"/w"⟩ patterns = .ok x →
        x.excludes (Path.join ⟨"/w"⟩ "src/lib.rs") = x.excludes ⟨"src/lib.rs"⟩ := by
  have hc : (Files.Tree.empty ["w"]).canonical? ⟨"/w"⟩ = some ⟨"/w"⟩ := by decide +kernel
  have hq : ∀ s ∈ (Path.mk "src/lib.rs").steps, ∃ name, s = .name name := by
    rw [show (Path.mk "src/lib.rs").steps = [.name "src", .name "lib.rs"] by decide +kernel]
    simp
  exact ⟨hc, (excludes_join_iff _ ⟨"/w"⟩ ⟨"/w"⟩ ⟨"src/lib.rs"⟩ hc hq).2 fun _ => rfl⟩

/-- Spelled `.`, the source root takes nothing off a path from the root of the tree, and is tried
first: what is to leave out all that is not part of the project leaves out a file of it. -/
theorem excluded_under_one_spelling :
    let t := Files.Tree.empty ["w"]
    t.canonical? ⟨"."⟩ = some ⟨"/w"⟩ ∧
      (make t ⟨"."⟩ ["/*", "tests/*"]).toOption.map (fun x =>
        (x.excludes (Path.join ⟨"/w"⟩ "src/lib.rs"), x.excludes ⟨"src/lib.rs"⟩)) =
          some (true, false) := by
  decide +kernel

end Coverage.Exclusions

end CoverageRun
