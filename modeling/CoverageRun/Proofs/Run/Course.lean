/-
The course of a run that has a result: it stops in one of its stages, for a failure of the stage or
because it is cut off, or it passes all of them. The result names the stage it stopped in, and holds
the report that was made by then.
-/
import CoverageRun.Proofs.Run.WellFormed

namespace CoverageRun.Run

variable {σ α β : Type}

/-! ## Stages -/

/-- The account of a run that has stopped in a stage: it has failed there, or it is still in it. -/
def StoppedIn (s : Stage) (report : Option Written) (q : Progress) : Halt → Prop
  | .failure f => q.report = report ∧ q.failure = some ⟨some s, f.message, f.exitCode⟩
  | _ => q.report = report ∧ q.phase = s.phase

/-- The account of a run that is in a phase and has noted down this report. -/
structure InPhase (phase : Phase) (report : Option Written) (q : Progress) : Prop where
  phase : q.phase = phase
  report : q.report = report
  failure : q.failure = none

/-- A run stops in a stage, or passes it and goes on in the next phase. -/
theorem stage_bind_cases (act : Action σ α) (f : α → Work σ β) (w : World σ) {q : Progress}
    {s : Stage} {report : Option Written} (hq : InPhase s.phase report q) :
    (∃ halt w' q', outcome act w = (.error halt, w') ∧
      outcome (stage act >>= f) (w, q) = (.error halt, w', q') ∧ StoppedIn s report q' halt) ∨
    ∃ a w' q', outcome act w = (.ok a, w') ∧
      outcome (stage act >>= f) (w, q) = outcome (f a) (w', q') ∧
      InPhase s.phase.next report q' := by
  rw [outcome_bind, outcome_stage]
  rcases outcome act w with ⟨(f | _ | _) | a, w'⟩
  · exact .inl ⟨_, _, _, rfl, rfl, by simp [StoppedIn, Progress.fail, hq.phase, hq.report]⟩
  · exact .inl ⟨_, _, _, rfl, rfl, hq.report, hq.phase⟩
  · exact .inl ⟨_, _, _, rfl, rfl, hq.report, hq.phase⟩
  · refine .inr ⟨_, _, _, rfl, rfl, ?_⟩
    constructor <;> simp [Progress.pass, hq.phase, hq.report, hq.failure, Phase.advance]

namespace Pipeline

/-! ## Where a run stops -/

/-- What a result says of a report that was made. -/
def written (p : Pipeline) (report : Coverage.Report) : Written :=
  ⟨p.aggregation.reportPath, report.digest, report.summary⟩

/-- The stage that a run stops in, the report made by then, the reason, and the world it leaves. -/
inductive StopsIn (h : Host σ) (p : Pipeline) (origin : Origin) (credential : Credential)
    (w : World σ) : Stage → Option Coverage.Report → Halt → World σ → Prop
  | provision {halt : Halt} {w' : World σ} :
    outcome (Toolchain.provision h ⟨p.directory, p.config.stageTimeout⟩ p.config.toolchain) w =
      (.error halt, w') → StopsIn h p origin credential w .provision none halt w'
  | build {halt : Halt} {w₁ w' : World σ} : outcome (p.cleared h) w = (.ok (), w₁) →
    outcome (p.build.build h) w₁ = (.error halt, w') →
      StopsIn h p origin credential w .build none halt w'
  | test {halt : Halt} {out : Completion} {w₁ w₂ w' : World σ} :
    outcome (p.cleared h) w = (.ok (), w₁) → outcome (p.build.build h) w₁ = (.ok out, w₂) →
    outcome (p.build.test h) w₂ = (.error halt, w') →
      StopsIn h p origin credential w .test none halt w'
  | aggregate {halt : Halt} {out : Completion} {profiles : Profile.Collection}
    {w₁ w₂ w₃ w' : World σ} : outcome (p.cleared h) w = (.ok (), w₁) →
    outcome (p.build.build h) w₁ = (.ok out, w₂) → outcome (p.build.test h) w₂ = (.ok profiles, w₃) →
    outcome (p.aggregation.aggregate h profiles) w₃ = (.error halt, w') →
      StopsIn h p origin credential w .aggregate none halt w'
  | publish {halt : Halt} {report : Coverage.Report} {w₁ w' : World σ} :
    outcome (p.reported h) w = (.ok report, w₁) →
    outcome (Action.upload h report credential origin) w₁ = (.error halt, w') →
      StopsIn h p origin credential w .publish (some report) halt w'

/-- The tree without the profiles and the report of an earlier run. -/
def clearedTree (p : Pipeline) (t : Files.Tree) : Files.Tree :=
  Aggregation.discardOutputs (Profile.removeAll t p.directory).2 p.aggregation.reportPath

/-- What an earlier run left is cleared away, and that does not fail. -/
theorem outcome_prepare (p : Pipeline) (w : World σ) :
    outcome (p.build.prepare p.config.aggregation.reportPath) w =
      (.ok (), { w with tree := p.clearedTree w.tree }) := by
  have hvalid : p.build.settings.validate = .ok () := p.sections_valid.2.1
  unfold Instrumentation.Build.prepare
  rw [outcome_bind, Action.outcome_ofExcept, hvalid]
  rfl

theorem outcome_cleared (h : Host σ) (p : Pipeline) (w : World σ) :
    outcome (p.cleared h) w =
      match outcome (Toolchain.provision h ⟨p.directory, p.config.stageTimeout⟩ p.config.toolchain) w with
      | (.ok _, w') => (.ok (), { w' with tree := p.clearedTree w'.tree })
      | (.error halt, w') => (.error halt, w') := by
  unfold cleared
  rw [outcome_bind]
  rcases outcome (Toolchain.provision h ⟨p.directory, p.config.stageTimeout⟩ p.config.toolchain) w with
    ⟨halt | changes, w'⟩
  · rfl
  · exact p.outcome_prepare w'

theorem outcome_buildStage (h : Host σ) (p : Pipeline) (w : World σ) :
    outcome (do
        p.build.prepare p.config.aggregation.reportPath
        let _ ← p.build.build h : Action σ Unit) w =
      match outcome (p.build.build h) { w with tree := p.clearedTree w.tree } with
      | (.ok _, w') => (.ok (), w')
      | (.error halt, w') => (.error halt, w') := by
  rw [outcome_bind, outcome_prepare]
  simp only
  rw [outcome_bind]
  rcases outcome (p.build.build h) { w with tree := p.clearedTree w.tree } with ⟨_ | _, _⟩ <;> rfl

/-- The stages of a run one after another, up to the one it stops in. -/
theorem drive_cases (h : Host σ) (p : Pipeline) (origin : Origin) (credential : Credential)
    (w : World σ) :
    (∃ s made halt w' q, outcome (p.drive h origin credential) (w, .started) = (.error halt, w', q) ∧
      p.StopsIn h origin credential w s made halt w' ∧ StoppedIn s (made.map p.written) q halt) ∨
    ∃ report receipt w₁ w' q, outcome (p.drive h origin credential) (w, .started) = (.ok (), w', q) ∧
      outcome (p.reported h) w = (.ok report, w₁) ∧
      outcome (Action.upload h report credential origin) w₁ = (.ok receipt, w') ∧
      q.report = some (p.written report) ∧ q.failure = none := by
  unfold drive
  rcases stage_bind_cases (Toolchain.provision h ⟨p.directory, p.config.stageTimeout⟩
    p.config.toolchain) _ w (q := .started) (s := .provision) ⟨rfl, rfl, rfl⟩ with
    ⟨halt, w₁, q₁, hprovision, ho, hq⟩ | ⟨changes, w₁, q₁, hprovision, ho, hq⟩ <;> rw [ho]
  case inl => exact .inl ⟨_, _, _, _, _, rfl, .provision hprovision, hq⟩
  have hcleared : outcome (p.cleared h) w = (.ok (), { w₁ with tree := p.clearedTree w₁.tree }) := by
    rw [outcome_cleared, hprovision]
  rcases stage_bind_cases (do
      p.build.prepare p.config.aggregation.reportPath
      let _ ← p.build.build h) _ w₁ (s := .build) hq with
    ⟨halt, w₂, q₂, hstage, ho, hq⟩ | ⟨_, w₂, q₂, hstage, ho, hq⟩ <;> rw [ho]
  case inl =>
    rw [outcome_buildStage] at hstage
    split at hstage <;> cases hstage
    rename_i hbuild
    exact .inl ⟨_, _, _, _, _, rfl, .build hcleared hbuild, hq⟩
  rw [outcome_buildStage] at hstage
  split at hstage <;> cases hstage
  rename_i out hbuild
  rcases stage_bind_cases (p.build.test h) _ w₂ (s := .test) hq with
    ⟨halt, w₃, q₃, htest, ho, hq⟩ | ⟨profiles, w₃, q₃, htest, ho, hq⟩ <;> rw [ho]
  case inl => exact .inl ⟨_, _, _, _, _, rfl, .test hcleared hbuild htest, hq⟩
  have hprofiles : outcome (p.profiles h) w = (.ok profiles, w₃) := by
    simp only [profiles_eq, outcome_bind, hcleared, hbuild, htest]
  rcases stage_bind_cases (p.aggregation.aggregate h profiles) _ w₃ (s := .aggregate) hq with
    ⟨halt, w₄, q₄, haggregate, ho, hq⟩ | ⟨report, w₄, q₄, haggregate, ho, hq⟩ <;> rw [ho]
  case inl => exact .inl ⟨_, _, _, _, _, rfl, .aggregate hcleared hbuild htest haggregate, hq⟩
  have hreported : outcome (p.reported h) w = (.ok report, w₄) := by
    simp only [reported, outcome_bind, hprofiles, haggregate]
  -- the report is noted down between the stage that makes it and the one that uploads it
  rw [outcome_bind, outcome_modify]
  rcases stage_bind_cases (Action.upload h report credential origin)
    (fun receipt => modify fun s => (s.1, { s.2 with receipt := some receipt })) w₄
    (q := { q₄ with report := some (p.written report) }) (s := .publish)
    ⟨hq.phase, rfl, hq.failure⟩ with
    ⟨halt, w₅, q₅, hupload, ho, hq⟩ | ⟨receipt, w₅, q₅, hupload, ho, hq⟩
  · exact .inl ⟨_, _, _, _, _, ho, .publish hreported hupload, hq⟩
  · exact .inr ⟨report, receipt, w₄, w₅, _, ho, hreported, hupload, hq.report, hq.failure⟩

/-- A run that stops before it publishes makes no report. -/
theorem StopsIn.reported {h : Host σ} {p : Pipeline} {origin : Origin} {credential : Credential}
    {w w' : World σ} {s : Stage} {made : Option Coverage.Report} {halt : Halt}
    (hstop : p.StopsIn h origin credential w s made halt w') :
    (outcome (p.reported h) w).1.toOption = made := by
  cases hstop with
  | provision hprovision =>
    simp only [Pipeline.reported, profiles, outcome_bind, hprovision]
    rfl
  | build hcleared hbuild =>
    simp only [Pipeline.reported, profiles_eq, outcome_bind, hcleared, hbuild]
    rfl
  | test hcleared hbuild htest =>
    simp only [Pipeline.reported, profiles_eq, outcome_bind, hcleared, hbuild, htest]
    rfl
  | aggregate hcleared hbuild htest haggregate =>
    simp only [Pipeline.reported, profiles_eq, outcome_bind, hcleared, hbuild, htest, haggregate]
    rfl
  | publish hmade hupload =>
    rw [hmade]
    rfl

theorem StopsIn.made_eq_none {h : Host σ} {p : Pipeline} {origin : Origin} {credential : Credential}
    {w w' : World σ} {s : Stage} {made : Option Coverage.Report} {halt : Halt}
    (hstop : p.StopsIn h origin credential w s made halt w') (hs : s ≠ .publish) : made = none := by
  cases hstop <;> first | rfl | exact absurd rfl hs

theorem StopsIn.cleared {h : Host σ} {p : Pipeline} {origin : Origin} {credential : Credential}
    {w w' : World σ} {s : Stage} {made : Option Coverage.Report} {halt : Halt}
    (hstop : p.StopsIn h origin credential w s made halt w')
    (hs : s ∈ [Stage.build, .test, .aggregate]) : ∃ w₁, outcome (p.cleared h) w = (.ok (), w₁) := by
  cases hstop with
  | provision => simp at hs
  | build hcleared => exact ⟨_, hcleared⟩
  | test hcleared => exact ⟨_, hcleared⟩
  | aggregate hcleared => exact ⟨_, hcleared⟩
  | publish => simp at hs

/-! ## Courses of runs -/

/-- What a run that has a result has gone through: a failure in a stage, a cut in a stage that did
not end, or all stages. -/
inductive Course (h : Host σ) (p : Pipeline) (origin : Origin) (credential : Credential)
    (w : World σ) (r : Result) : World σ → Prop
  | failed {s : Stage} {made : Option Coverage.Report} {f : Failure} {w' : World σ} :
    p.StopsIn h origin credential w s made (.failure f) w' →
    r.failure = some ⟨some s, f.message, f.exitCode⟩ → r.report = made.map p.written →
      Course h p origin credential w r w'
  | cutOff {s : Stage} {made : Option Coverage.Report} {seconds : UInt64} {late : Option Late}
    {w₁ : World σ} {q : Progress} :
    p.StopsIn h origin credential w s made (.unending late) w₁ → q.phase = s.phase →
    p.config.runTimeout = some seconds →
    r.failure = some ⟨some s, (outOfTime seconds).message, (outOfTime seconds).exitCode⟩ →
    r.report = made.map p.written → Course h p origin credential w r (p.cutOff seconds late w₁ q).1
  | passed {report : Coverage.Report} {receipt : Upload.Receipt} {w₁ w' : World σ} :
    outcome (p.reported h) w = (.ok report, w₁) →
    outcome (Action.upload h report credential origin) w₁ = (.ok receipt, w') →
    r.failure = none → r.report = some (p.written report) → Course h p origin credential w r w'

/-- A run that is let start and has a result has gone one of these courses. -/
theorem course_of_run {h : Host σ} {p : Pipeline} {event : Event} {origin : Origin}
    {credential : Credential} {w w' : World σ} {r : Result}
    (hstarts : p.config.trigger.starts event = true)
    (ho : p.run h event origin credential w = (.ok r, w')) :
    p.Course h origin credential w r w' := by
  rw [run_eq h p event origin credential w hstarts] at ho
  rcases p.drive_cases h origin credential w with
    ⟨s, made, halt, w₁, q, hdrive, hstop, hq⟩ |
    ⟨report, receipt, w₁, w₂, q, hdrive, hmade, hupload, hq⟩ <;>
    rw [hdrive] at ho
  case inr =>
    cases ho
    exact .passed hmade hupload hq.2 hq.1
  cases halt with
  | failure f =>
    cases ho
    exact .failed hstop hq.2 hq.1
  | overflow => cases ho
  | unending late =>
    simp only at ho
    cases htime : p.config.runTimeout with
    | none => rw [htime] at ho; cases ho
    | some seconds =>
      rw [htime] at ho
      cases ho
      refine .cutOff hstop hq.2 htime ?_ hq.1
      simp [Pipeline.cutOff, Progress.fail, Progress.result, hq.2]

/-- A run that names the stage it failed in has failed there or was cut off there. -/
theorem Course.stopsIn {h : Host σ} {p : Pipeline} {origin : Origin} {credential : Credential}
    {w w' : World σ} {r : Result} (hcourse : p.Course h origin credential w r w') {s : Stage}
    {message : String} {exitCode : Int} (hfailure : r.failure = some ⟨some s, message, exitCode⟩) :
    (∃ made f, p.StopsIn h origin credential w s made (.failure f) w') ∨
    ∃ made seconds late w₁ q, p.StopsIn h origin credential w s made (.unending late) w₁ ∧
      q.phase = s.phase ∧ w' = (p.cutOff seconds late w₁ q).1 := by
  cases hcourse with
  | failed hstop hf hreport =>
    rw [hfailure] at hf
    cases hf
    exact .inl ⟨_, _, hstop⟩
  | cutOff hstop hphase htime hf hreport =>
    rw [hfailure] at hf
    cases hf
    exact .inr ⟨_, _, _, _, _, hstop, hphase, rfl⟩
  | passed hmade hupload hf hreport =>
    rw [hfailure] at hf
    cases hf

end Pipeline

end CoverageRun.Run
