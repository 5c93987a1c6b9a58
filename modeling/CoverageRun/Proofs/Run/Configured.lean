/-
What the stages of a run find wrong with its configuration. The sections are checked before a run,
and what the stages check again they find as it was; but the exclusion patterns are first read when
the report is to be made. So no stage fails for the configuration except that one, and it does
exactly when it gets as far as the patterns and one of them cannot be read.
-/
import CoverageRun.Proofs.Coverage.Exclusions
import CoverageRun.Proofs.Run.Course

namespace CoverageRun

variable {σ : Type} {h : Host σ} {allowed : Halt → Prop}

namespace Aggregation.Task

/-! ## Checks before the report -/

/-- Where the settings are valid, the checks before a report find no fault with the configuration but
exclusion patterns that cannot be used, and these wherever they come to them. -/
theorem ready?_eq_misconfiguration {a : Task} (ha : a.settings.validate = .ok ())
    {profiles : Profile.Collection} {t : Files.Tree}
    {refuses : List Glob.Pattern → Option String} {f : Failure} (hf : f.isMisconfiguration = true) :
    a.ready? profiles t refuses = .error f ↔
      profiles.artifacts ≠ [] ∧ t.isPresent (resolve a.directory a.settings.binaryPath) = true ∧
        ∃ pattern reason, Coverage.Exclusions.Unusable refuses a.settings.excludes pattern reason ∧
          f = .aggregation (.invalidGlob pattern reason) := by
  unfold ready?
  rw [ha]
  by_cases hprofiles : profiles.artifacts = []
  · simp only [hprofiles, List.isEmpty_nil, if_true, ne_eq, not_true, false_and, iff_false]
    rintro ⟨⟩
    cases hf
  simp only [List.isEmpty_iff, hprofiles, if_false, ne_eq, not_false_iff, true_and]
  cases hbinaries : t.isPresent (resolve a.directory a.settings.binaryPath) with
  | false =>
    simp only [Bool.not_false, if_true, Bool.false_eq_true, false_and, iff_false]
    rintro ⟨⟩
    cases hf
  | true =>
    simp only [Bool.not_true, Bool.false_eq_true, if_false, true_and]
    constructor
    · intro hready
      cases hmake : a.exclusionsIn t refuses with
      | ok x => rw [hmake] at hready; cases hready
      | error fault =>
        rw [hmake] at hready
        cases hready
        exact ⟨_, _, Coverage.Exclusions.make_eq_error_iff.1 ⟨fault, hmake, rfl, rfl⟩, rfl⟩
    · rintro ⟨pattern, reason, hunusable, rfl⟩
      obtain ⟨fault, hmake, rfl, rfl⟩ := Coverage.Exclusions.make_eq_error_iff.2 hunusable
      rw [exclusionsIn, hmake, mapError_error]

end Aggregation.Task

namespace Run.Pipeline

/-! ## Failures in stages -/

/-- A run that is let start fails in a stage, and notes that down. -/
def FailsIn (h : Host σ) (p : Pipeline) (event : Event) (origin : Origin) (credential : Credential)
    (w : World σ) (s : Stage) (f : Failure) : Prop :=
  p.config.trigger.starts event = true ∧
    ∃ w' q, outcome (p.drive h origin credential) (w, .started) = (.error (.failure f), w', q) ∧
      q.failure = some ⟨some s, f.message, f.exitCode⟩

variable {p : Pipeline} {event : Event} {origin : Origin} {credential : Credential} {w w' : World σ}
  {s : Stage} {f : Failure} {halt : Halt} {made : Option Coverage.Report}

/-- The result of such a run says so. -/
theorem FailsIn.result (hfails : p.FailsIn h event origin credential w s f) :
    ∃ r, (p.run h event origin credential w).1 = .ok r ∧
      r.failure = some ⟨some s, f.message, f.exitCode⟩ := by
  obtain ⟨hstarts, w', q, hdrive, hq⟩ := hfails
  rw [run_eq h p event origin credential w hstarts, hdrive]
  exact ⟨_, rfl, hq⟩

theorem FailsIn.stopsIn (hfails : p.FailsIn h event origin credential w s f) :
    ∃ made w', p.StopsIn h origin credential w s made (.failure f) w' := by
  obtain ⟨-, w', q, hdrive, hq⟩ := hfails
  rcases p.drive_cases h origin credential w with
    ⟨s', made, halt, w₁, q₁, ho, hstop, hq₁⟩ | ⟨report, receipt, w₁, w₂, q₁, ho, -⟩ <;>
    rw [hdrive] at ho <;> cases ho
  cases hq₁.2.symm.trans hq
  exact ⟨made, _, hstop⟩

/-- A stage stops for an allowed reason, or making the report does in the checks before it. -/
theorem StopsIn.allowed_or_ready (hh : Admits h allowed) (hoverflow : allowed .overflow)
    (hstop : p.StopsIn h origin credential w s made halt w') :
    allowed halt ∨ s = .aggregate ∧ ∃ profiles w₁ f, outcome (p.profiles h) w = (.ok profiles, w₁) ∧
      p.aggregation.ready? profiles w₁.tree h.refuses = .error f ∧ halt = .failure f := by
  cases hstop with
  | provision hprovision => exact .inl (p.stops_provision hh w _ _ hprovision)
  | build hcleared hbuild => exact .inl (p.build.stops_build hh _ _ _ hbuild)
  | test hcleared hbuild htest => exact .inl (p.build.stops_test hh _ _ _ htest)
  | @aggregate _ _ profiles _ _ w₃ _ hcleared hbuild htest haggregate =>
    have hprofiles : outcome (p.profiles h) w = (.ok profiles, w₃) := by
      simp only [profiles_eq, outcome_bind, hcleared, hbuild, htest]
    rw [Aggregation.Task.outcome_aggregate] at haggregate
    split at haggregate
    · rename_i exclusions _
      exact .inl (Aggregation.Task.stops_collectOrDiscard
        (Aggregation.Task.spoils_of_admits hh hoverflow p.aggregation) profiles exclusions (.issue hh _)
        _ _ _ haggregate)
    · rename_i f hready
      cases haggregate
      exact .inr ⟨rfl, profiles, _, f, hprofiles, hready, rfl⟩
  | publish hmade hupload => exact .inl (Stops.upload hh _ _ _ _ _ _ hupload)

/-- What the host does not find wrong with the configuration, only the checks before the report do. -/
theorem FailsIn.ready (hf : f.isMisconfiguration = true) (hh : ¬ h.Fails f)
    (hfails : p.FailsIn h event origin credential w s f) :
    s = .aggregate ∧ ∃ profiles w₁, outcome (p.profiles h) w = (.ok profiles, w₁) ∧
      p.aggregation.ready? profiles w₁.tree h.refuses = .error f := by
  obtain ⟨made, w', hstop⟩ := hfails.stopsIn
  have hadmits : Admits h (· ≠ .failure f) := by
    refine ⟨?_, ?_, .inr (by simp)⟩
    · rintro f' hf' ⟨⟩
      rw [hf] at hf'
      cases hf'
    · rintro f' hf' ⟨⟩
      exact hh hf'
  rcases hstop.allowed_or_ready hadmits (by simp) with hne | ⟨hs, profiles, w₁, f', ho, hready, hhalt⟩
  · exact absurd rfl hne
  · cases hhalt
    exact ⟨hs, profiles, w₁, ho, hready⟩

/-- What the work of a run fails for, it fails for in one of its stages. -/
theorem exists_failsIn_of_work (hstarts : p.config.trigger.starts event = true)
    (hwork : (outcome (p.work h origin credential) w).1 = .error (.failure f)) :
    ∃ s, p.FailsIn h event origin credential w s f := by
  have hdrive := (p.follows_drive h origin credential w .started).1
  rw [hwork] at hdrive
  rcases p.drive_cases h origin credential w with
    ⟨s, made, halt, w₂, q, ho, -, hq⟩ | ⟨report, receipt, w₁, w₂, q, ho, -⟩ <;>
    rw [ho] at hdrive <;> cases hdrive
  exact ⟨s, hstarts, w₂, q, ho, hq.2⟩

/-- What the checks before the report find is what the run fails for. -/
theorem exists_failsIn_of_ready (origin : Origin) (credential : Credential)
    (hstarts : p.config.trigger.starts event = true) {profiles : Profile.Collection} {w₁ : World σ}
    (hprofiles : outcome (p.profiles h) w = (.ok profiles, w₁))
    (hready : p.aggregation.ready? profiles w₁.tree h.refuses = .error f) :
    ∃ s, p.FailsIn h event origin credential w s f := by
  refine exists_failsIn_of_work hstarts ?_
  simp only [work_eq, reported, outcome_bind, hprofiles, Aggregation.Task.outcome_aggregate, hready]

/-- Where the host itself does not say that the configuration is wrong, no stage does, except that the
report is not made for exclusion patterns that cannot be used: exactly where the run gets there with
profiles and binaries, and the failure names the first pattern that is none, or all patterns where
the set of them is refused. -/
theorem failsIn_misconfigured_iff (h : Host σ) (p : Pipeline) (event : Event) (origin : Origin)
    (credential : Credential) (w : World σ) (s : Stage) {f : Failure}
    (hf : f.isMisconfiguration = true) (hh : ¬ h.Fails f) :
    p.FailsIn h event origin credential w s f ↔
      s = .aggregate ∧ p.config.trigger.starts event = true ∧
      ∃ profiles w₁ pattern reason, outcome (p.profiles h) w = (.ok profiles, w₁) ∧
        profiles.artifacts ≠ [] ∧
        w₁.tree.isPresent (Aggregation.resolve p.directory p.config.aggregation.binaryPath) = true ∧
        Coverage.Exclusions.Unusable h.refuses p.config.aggregation.excludes pattern reason ∧
        f = .aggregation (.invalidGlob pattern reason) := by
  have hvalid : p.aggregation.settings.validate = .ok () := p.sections_valid.2.2
  constructor
  · intro hfails
    obtain ⟨hs, profiles, w₁, ho, hready⟩ := hfails.ready hf hh
    obtain ⟨hprofiles, hbinaries, pattern, reason, hunusable, hglob⟩ :=
      (Aggregation.Task.ready?_eq_misconfiguration hvalid hf).1 hready
    exact ⟨hs, hfails.1, profiles, w₁, pattern, reason, ho, hprofiles, hbinaries, hunusable, hglob⟩
  · rintro ⟨rfl, hstarts, profiles, w₁, pattern, reason, ho, hprofiles, hbinaries, hunusable, hglob⟩
    have hready := (Aggregation.Task.ready?_eq_misconfiguration hvalid hf).2
      ⟨hprofiles, hbinaries, pattern, reason, hunusable, hglob⟩
    obtain ⟨s, hfails⟩ := exists_failsIn_of_ready origin credential hstarts ho hready
    obtain ⟨rfl, -⟩ := hfails.ready hf hh
    exact hfails

/-- A pipeline with one exclusion pattern, which opens a class and does not close it. -/
def unclosed : Pipeline :=
  ⟨{ Config.standard with
      aggregation := { Aggregation.Settings.standard with excludes := ["src/["] } },
    ⟨"."⟩, by decide +kernel⟩

/-- A host whose commands pass, and for which every set of patterns is too large. -/
def refusing : Host Unit :=
  { passing "SF:a\nDA:1,2" with
    refuses := fun _ => some "Compiled regex exceeds size limit of 10485760 bytes." }

theorem not_fails_of_run_eq {h : Host Unit} {text : String} (hrun : h.run = (passing text).run)
    (hpublish : h.publish = (passing text).publish) {f : Failure} (hf : f.isMisconfiguration = true) :
    ¬ h.Fails f := by
  rintro (⟨c, t, s, hanswer⟩ | ⟨r, credential, origin, s, hanswer⟩)
  · rw [hrun] at hanswer
    cases hanswer
  · rw [hpublish] at hanswer
    cases hanswer
    cases hf

theorem exists_profiles {h : Host σ} {w : World σ} {artifacts : List Path}
    (hfound : (outcome (p.profiles h) w).1.toOption.map (·.artifacts) = some artifacts)
    (hsome : artifacts ≠ []) :
    ∃ profiles, outcome (p.profiles h) w = (.ok profiles, (outcome (p.profiles h) w).2) ∧
      profiles.artifacts ≠ [] := by
  rcases ho : outcome (p.profiles h) w with ⟨e | profiles, w₁⟩ <;> rw [ho] at hfound
  · cases hfound
  · cases hfound
    exact ⟨profiles, rfl, hsome⟩

theorem unusable_unclosed : Coverage.Exclusions.Unusable (fun _ => none) ["src/["] "src/["
    "error parsing glob 'src/[': unclosed character class; missing ']'" := by
  have hpattern : Glob.Pattern.parse "src/[" = .error .unclosedClass := by
    simp [Glob.Pattern.parse, Glob.Scan.run, Glob.readClassStart, Glob.readClassBody, Except.map]
  have hmessage : Glob.Fault.unclosedClass.message "src/[" =
      "error parsing glob 'src/[': unclosed character class; missing ']'" := by decide +kernel
  exact hmessage ▸ .malformed [] [] rfl (by simp) hpattern

theorem unusable_refused (reason : String) :
    Coverage.Exclusions.Unusable (fun _ => some reason) ["/*", "tests/*"] "/*, tests/*" reason := by
  have hvalid : ∀ text ∈ ["/*", "tests/*"], ∃ p, Glob.Pattern.parse text = .ok p := by
    simp only [List.mem_cons, List.not_mem_nil, or_false, forall_eq_or_imp, forall_eq]
    exact ⟨⟨_, Glob.Simple.parse_text (p := .beginning "/") (by decide +kernel)⟩,
      _, Glob.Simple.parse_text (p := .beginning "tests/") (by decide +kernel)⟩
  obtain ⟨ps, hps, -⟩ := Coverage.Exclusions.readPatterns_of_valid hvalid
  have htexts : Text.joinText ", " ["/*", "tests/*"] = "/*, tests/*" := by decide +kernel
  exact htexts ▸ .refused (Coverage.Exclusions.readPatterns_eq_ok_iff.1 hps) rfl

/-- The first pattern that is none is named, and where the set of them is refused all are. -/
theorem failsIn_unusable :
    unclosed.FailsIn (passing "SF:a\nDA:1,2") ⟨.push, "refs/heads/main"⟩ (.ofCommit "c" "r")
      anyCredential project .aggregate
      (.aggregation (.invalidGlob "src/["
        "error parsing glob 'src/[': unclosed character class; missing ']'")) ∧
    standard.FailsIn refusing ⟨.push, "refs/heads/main"⟩ (.ofCommit "c" "r") anyCredential project
      .aggregate (.aggregation (.invalidGlob "/*, tests/*"
        "Compiled regex exceeds size limit of 10485760 bytes.")) := by
  constructor
  · have hsound : ¬ (passing "SF:a\nDA:1,2").Fails (.aggregation (.invalidGlob "src/["
        "error parsing glob 'src/[': unclosed character class; missing ']'")) :=
      not_fails_of_run_eq rfl rfl rfl
    obtain ⟨profiles, ho, hprofiles⟩ := exists_profiles
      (show (outcome (unclosed.profiles (passing "SF:a\nDA:1,2")) project).1.toOption.map
        (·.artifacts) = some [⟨"./a.profraw"⟩] by decide +kernel) (by simp)
    exact (failsIn_misconfigured_iff _ unclosed _ _ _ project .aggregate rfl hsound).2
      ⟨rfl, by decide +kernel, profiles, _, _, _, ho, hprofiles, by decide +kernel,
        unusable_unclosed, rfl⟩
  · have hsound : ¬ refusing.Fails (.aggregation (.invalidGlob "/*, tests/*"
        "Compiled regex exceeds size limit of 10485760 bytes.")) :=
      not_fails_of_run_eq rfl rfl rfl
    obtain ⟨profiles, ho, hprofiles⟩ := exists_profiles
      (show (outcome (standard.profiles refusing) project).1.toOption.map (·.artifacts) =
        some [⟨"./a.profraw"⟩] by decide +kernel) (by simp)
    exact (failsIn_misconfigured_iff _ standard _ _ _ project .aggregate rfl hsound).2
      ⟨rfl, by decide +kernel, profiles, _, _, _, ho, hprofiles, by decide +kernel,
        unusable_refused _, rfl⟩

/-- A configuration that is accepted, and a run of it that comes through its build and its tests and
then fails for it. -/
theorem misconfigured_when_aggregating :
    unclosed.config.validate = .ok () ∧
    (unclosed.run (passing "SF:a\nDA:1,2") ⟨.push, "refs/heads/main"⟩ (.ofCommit "c" "r")
        anyCredential project).1.toOption.map (fun r => (r.stages.map (·.stage), r.failure)) =
      some ([.provision, .build, .test, .aggregate],
        some ⟨some .aggregate, "aggregation failed: invalid exclusion glob `src/[`: " ++
          "error parsing glob 'src/[': unclosed character class; missing ']'", 40⟩) :=
  ⟨unclosed.valid, by decide +kernel⟩

end Run.Pipeline

end CoverageRun
