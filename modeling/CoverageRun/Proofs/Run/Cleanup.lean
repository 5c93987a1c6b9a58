/-
What a run that fails leaves of its report, from the moment the outputs of earlier runs are cleared
away. Building and testing make no output unless their commands do, an aggregation that fails brings
none, and one that is cut off has all of them discarded. But what the aggregation was doing to its
files then is not called back: it may land behind the removals and bring an output back.
-/
import CoverageRun.Proofs.Aggregation.Overtaken
import CoverageRun.Proofs.Run.Course
import CoverageRun.Proofs.Run.Protocol

namespace CoverageRun.Run

open Aggregation

variable {σ : Type} {h : Host σ} {p : Pipeline}

namespace Pipeline

/-- The commands that build and test put no file or link at an output of the report. -/
structure Spares (h : Host σ) (p : Pipeline) (w : World σ) : Prop where
  build : ∀ q ∈ outputs p.aggregation.reportPath,
    (outcome (p.build.build h) w).2.tree.namesFile q = true → w.tree.namesFile q = true
  test : ∀ out w', outcome (p.build.build h) w = (.ok out, w') →
    ∀ q ∈ outputs p.aggregation.reportPath,
      (outcome (p.build.test h) w').2.tree.namesFile q = true → w'.tree.namesFile q = true

namespace Spares

variable {w w₁ w₂ : World σ}

theorem noOutputs_build (hspares : p.Spares h w) (hnone : NoOutputs w.tree p.aggregation.reportPath) :
    NoOutputs (outcome (p.build.build h) w).2.tree p.aggregation.reportPath :=
  hnone.mono hspares.build

theorem noOutputs_test (hspares : p.Spares h w) (hnone : NoOutputs w.tree p.aggregation.reportPath)
    {out : Completion} (hbuild : outcome (p.build.build h) w = (.ok out, w₁)) :
    NoOutputs (outcome (p.build.test h) w₁).2.tree p.aggregation.reportPath := by
  have hbuilt := hspares.noOutputs_build hnone
  rw [hbuild] at hbuilt
  exact hbuilt.mono (hspares.test out w₁ hbuild)

end Spares

/-- Before a build nothing is left of earlier outputs. -/
theorem noOutputs_cleared {w w₁ : World σ} (ho : outcome (p.cleared h) w = (.ok (), w₁)) :
    NoOutputs w₁.tree p.aggregation.reportPath := by
  rw [outcome_cleared] at ho
  split at ho <;> cases ho
  exact noOutputs_discardOutputs _ _

theorem tree_cutOff (p : Pipeline) (seconds : UInt64) (late : Option Late) (w : World σ)
    {q : Progress} (hphase : q.phase = .aggregating) :
    (p.cutOff seconds late w q).1.tree = discardAmid w.tree p.aggregation.reportPath late := by
  simp only [cutOff, hphase, if_true]

/-- The aggregation was cut off while it waited for the report to be staged or renamed, and that
landed amid the removals and brought back an output that had been removed. -/
def LeftLate (h : Host σ) (p : Pipeline) (origin : Origin) (credential : Credential)
    (w w' : World σ) : Prop :=
  ∃ (late : Late) (w₂ : World σ),
    p.StopsIn h origin credential w .aggregate none (.unending (some late)) w₂ ∧
    (∃ t s, h.overtakes late.operation t s = some late.landing) ∧
    ((∃ report : Coverage.Report,
        late.operation = .write (stagedPath p.aggregation.reportPath) report.octets) ∨
      late.operation = .rename (stagedPath p.aggregation.reportPath) p.aggregation.reportPath) ∧
    BringsBack w₂.tree p.aggregation.reportPath (some late) ∧
    w'.tree = discardAmid w₂.tree p.aggregation.reportPath (some late)

/-- What a run leaves that stops in a stage before publishing and is not cut off there. -/
theorem noOutputs_of_stopsIn {origin : Origin} {credential : Credential} {w w₁ w' : World σ}
    {s : Stage} {made : Option Coverage.Report} {halt : Halt}
    (hcleared : outcome (p.cleared h) w = (.ok (), w₁)) (hspares : p.Spares h w₁)
    (hstop : p.StopsIn h origin credential w s made halt w') (hstage : s = .build ∨ s = .test ∨
      s = .aggregate ∧ ∃ f, halt = .failure f) :
    NoOutputs w'.tree p.aggregation.reportPath := by
  have hnone := noOutputs_cleared hcleared
  cases hstop with
  | provision => simp at hstage
  | build hcleared' hbuild =>
    rw [hcleared] at hcleared'
    cases hcleared'
    have h := hspares.noOutputs_build hnone
    rwa [hbuild] at h
  | test hcleared' hbuild htest =>
    rw [hcleared] at hcleared'
    cases hcleared'
    have h := hspares.noOutputs_test hnone hbuild
    rwa [htest] at h
  | aggregate hcleared' hbuild htest haggregate =>
    rw [hcleared] at hcleared'
    cases hcleared'
    have h := hspares.noOutputs_test hnone hbuild
    rw [htest] at h
    obtain ⟨f, rfl⟩ : ∃ f, halt = .failure f := by simpa using hstage
    exact Task.noOutputs_of_aggregate h haggregate
  | publish => simp at hstage

/-- What a run leaves whose aggregation is cut off. -/
theorem noOutputs_or_leftLate {origin : Origin} {credential : Credential} {w w₂ : World σ}
    {made : Option Coverage.Report} {late : Option Late} {q : Progress} (seconds : UInt64)
    (hstop : p.StopsIn h origin credential w .aggregate made (.unending late) w₂)
    (hphase : q.phase = .aggregating) :
    NoOutputs (p.cutOff seconds late w₂ q).1.tree p.aggregation.reportPath ∨
      p.LeftLate h origin credential w (p.cutOff seconds late w₂ q).1 := by
  have htree := p.tree_cutOff seconds late w₂ hphase
  by_cases hback : BringsBack w₂.tree p.aggregation.reportPath late
  case neg => exact .inl (htree ▸ noOutputs_discardAmid hback)
  cases late with
  | none => cases hback
  | some late =>
    obtain rfl := hstop.made_eq_none (by simp)
    obtain ⟨hwaits, hovertaken⟩ : p.aggregation.Waits late.operation ∧
        ∃ t s, h.overtakes late.operation t s = some late.landing := by
      cases hstop with
      | aggregate _ _ _ haggregate => exact Task.waits_of_aggregate haggregate
    refine .inr ⟨late, w₂, hstop, hovertaken, ?_, hback, htree⟩
    obtain ⟨op, landing⟩ := late
    cases hwaits with
    | read => exact absurd hback (not_bringsBack_read _ _ _ _)
    | write report => exact .inl ⟨report, rfl⟩
    | rename => exact .inr rfl

/-- Where a run fails in building, testing or aggregating no report is uploaded. If building and
testing put none of them there, neither the report nor its raw output nor its staged form is there
afterwards, unless time was up while the report was staged or renamed and that landed amid the
removals; and staging that lands behind them leaves the staged report wherever it does not fail. -/
theorem run_leaves_no_report (h : Host σ) (p : Pipeline) (event : Event) (origin : Origin)
    (credential : Credential) (w w' : World σ) (r : Result) (s : Stage) (message : String)
    (exitCode : Int) (ho : p.run h event origin credential w = (.ok r, w'))
    (hfailure : r.failure = some ⟨some s, message, exitCode⟩)
    (hstage : s ∈ [.build, .test, .aggregate]) :
    uploads (p.calls h event origin credential w) = [] ∧
    (∃ w₁, outcome (p.cleared h) w = (.ok (), w₁) ∧ (p.Spares h w₁ →
      NoOutputs w'.tree p.aggregation.reportPath ∨ p.LeftLate h origin credential w w')) ∧
    ∀ seconds late (w₂ : World σ) q, q.phase = .aggregating →
      (¬ BringsBack w₂.tree p.aggregation.reportPath late →
        NoOutputs (p.cutOff seconds late w₂ q).1.tree p.aggregation.reportPath) ∧
      ∀ bytes n, 3 ≤ n →
        late = some ⟨.write (stagedPath p.aggregation.reportPath) bytes, .after n⟩ →
        (NoOutputs (p.cutOff seconds late w₂ q).1.tree p.aggregation.reportPath ↔
          ∀ t, (discardOutputs w₂.tree p.aggregation.reportPath).write
            (stagedPath p.aggregation.reportPath) bytes ≠ .ok t) := by
  have hstarts : p.config.trigger.starts event = true := by
    by_contra hnot
    simp only [run, skipped?, hnot] at ho
    cases ho
    cases hfailure
  have hnoReport : ∀ {made halt w₁}, p.StopsIn h origin credential w s made halt w₁ →
      uploads (p.calls h event origin credential w) = [] := by
    intro made halt w₁ hstop
    have hmade := hstop.made_eq_none (by rintro rfl; simp at hstage)
    rw [uploads_calls hstarts, hstop.reported, hmade]
    rfl
  refine ⟨?_, ?_, fun seconds late w₂ q hphase => ?_⟩
  · rcases (course_of_run hstarts ho).stopsIn hfailure with
      ⟨made, f, hstop⟩ | ⟨made, seconds, late, w₂, q, hstop, -⟩
    · exact hnoReport hstop
    · exact hnoReport hstop
  · rcases (course_of_run hstarts ho).stopsIn hfailure with
      ⟨made, f, hstop⟩ | ⟨made, seconds, late, w₂, q, hstop, hphase, rfl⟩ <;>
      obtain ⟨w₁, hcleared⟩ := hstop.cleared hstage <;>
      refine ⟨w₁, hcleared, fun hspares => ?_⟩
    · exact .inl (noOutputs_of_stopsIn hcleared hspares hstop (by simpa using hstage))
    · by_cases haggregate : s = .aggregate
      · subst haggregate
        exact noOutputs_or_leftLate seconds hstop hphase
      · -- elsewhere what is cut off leaves the world as it is
        have hworld : (p.cutOff seconds late w₂ q).1 = w₂ := by
          simp only [List.mem_cons, List.not_mem_nil, or_false] at hstage
          rcases hstage with rfl | rfl | rfl
          · simp [cutOff, hphase, Stage.phase]
          · simp [cutOff, hphase, Stage.phase]
          · exact absurd rfl haggregate
        rw [hworld]
        refine .inl (noOutputs_of_stopsIn hcleared hspares hstop ?_)
        simpa [haggregate] using hstage
  · rw [tree_cutOff p seconds late w₂ hphase]
    refine ⟨noOutputs_discardAmid, ?_⟩
    rintro bytes n hn rfl
    exact noOutputs_staged_iff hn w₂.tree _ bytes

/-- A pipeline with the standard configuration and a limit of time. -/
def limited : Pipeline := ⟨{ Config.standard with runTimeout := some 5 }, ⟨"."⟩, by decide +kernel⟩

/-- A host whose coverage tool does not end; before that it writes parts of a report, of its raw
output and of its staged form. -/
def hanging : Host Unit where
  run c t _ :=
    if c.name = "aggregate" then
      (.unending, ((t.put ["lcov.info"] (.text "TN:")).put ["lcov.info.raw"] (.text "SF:a")).put
        ["lcov.info.tmp"] (.link "lcov.info"), ())
    else
      (.completed ⟨c.name, 0, "", "", true⟩,
        if c.name = "cargo_test" then t.put ["a.profraw"] (.file [] false) else t, ())
  publish _ _ _ _ := (.failed (.publish "no service"), ())

theorem run_leaves_no_report_of_hanging :
    ∃ r w', limited.run hanging ⟨.push, "refs/heads/main"⟩ (.ofCommit "c" "r") anyCredential
        Task.reported = (.ok r, w') ∧
      r.failure = some ⟨some .aggregate, (outOfTime 5).message, (outOfTime 5).exitCode⟩ ∧
      ¬ NoOutputs Task.reported.tree limited.aggregation.reportPath ∧
      NoOutputs w'.tree limited.aggregation.reportPath := by
  have hfailure : ((limited.run hanging ⟨.push, "refs/heads/main"⟩ (.ofCommit "c" "r") anyCredential
      Task.reported).1.toOption.bind (·.failure)) =
      some ⟨some .aggregate, (outOfTime 5).message, (outOfTime 5).exitCode⟩ := by decide +kernel
  rcases ho : limited.run hanging ⟨.push, "refs/heads/main"⟩ (.ofCommit "c" "r") anyCredential
    Task.reported with ⟨halt | r, w'⟩ <;> rw [ho] at hfailure
  · cases hfailure
  obtain ⟨-, ⟨w₁, hcleared, hnone⟩, -⟩ :=
    run_leaves_no_report hanging limited _ _ _ _ w' r .aggregate _ _ ho hfailure (by decide)
  refine ⟨r, w', rfl, hfailure, by decide +kernel, (hnone ?_).resolve_right ?_⟩
  case refine_2 =>
    -- no file operation is overtaken
    rintro ⟨late, w₂, -, ⟨t, s, hlate⟩, -⟩
    cases hlate
  have hw : w₁ = (outcome (limited.cleared hanging) Task.reported).2 := by rw [hcleared]
  subst hw
  constructor
  case build => decide +kernel
  case test =>
    intro out w₂ hbuild
    have hw : w₂ = (outcome (limited.build.build hanging)
      (outcome (limited.cleared hanging) Task.reported).2).2 := by rw [hbuild]
    subst hw
    decide +kernel

/-- A host whose commands pass, where time is up while a report is staged. That lands when all outputs
have been removed. -/
def stagingLate : Host Unit :=
  { passing "SF:a\nDA:1,2" with
    overtakes
      | .write _ _, _, _ => some (.after 3)
      | _, _, _ => none }

/-- A host whose commands pass, where time is up while a staged report is renamed. That lands when the
report has been removed, and before its staged form is. -/
def renamingLate : Host Unit :=
  { passing "SF:a\nDA:1,2" with
    overtakes
      | .rename _ _, _, _ => some (.after 1)
      | _, _, _ => none }

/-- Of a run that fails for time while its report is staged the staged report may be left, and of one
that fails while it is renamed the whole report. -/
theorem report_of_overtaken_run :
    let run h := limited.run h ⟨.push, "refs/heads/main"⟩ (.ofCommit "c" "r") anyCredential project
    let failure := some ⟨some .aggregate, (outOfTime 5).message, (outOfTime 5).exitCode⟩
    (run stagingLate).1.toOption.map (·.failure) = some failure ∧
      (run stagingLate).2.tree.namesFile ⟨"./lcov.info.tmp"⟩ = true ∧
      (run renamingLate).1.toOption.map (·.failure) = some failure ∧
      (run renamingLate).2.tree.namesFile ⟨"./lcov.info"⟩ = true := by
  decide +kernel

/-- A pipeline whose report path leads up again from the directory that builds make. -/
def detour : Pipeline :=
  ⟨{ Config.standard with
      aggregation := { Aggregation.Settings.standard with reportPath := ⟨"target/../lcov.info"⟩ } },
    ⟨"."⟩, by decide +kernel⟩

/-- A host whose commands pass and make directories only: the build makes that of its programs. -/
def building : Host Unit where
  run c t _ :=
    (.completed ⟨c.name, 0, "", "", true⟩,
      if c.name = "cargo_build" then t.putDirectories ["target", "debug"] else t, ())
  publish _ _ _ _ := (.failed (.publish "no service"), ())

/-- A run that fails leaves the report of an earlier one where its path led nowhere before the build:
it was not removed then, and an aggregation without profiles fails without removing it. -/
theorem report_of_earlier_run :
    let w : World Unit := ⟨⟨.ofList [(["lcov.info"], .text "SF:old\nend_of_record\n")], []⟩, (), []⟩
    let after := detour.run building ⟨.push, "refs/heads/main"⟩ (.ofCommit "c" "r") anyCredential w
    after.1.toOption.map (fun r => (r.phase, r.failure.map (·.stage))) =
        some (.failed, some (some .aggregate)) ∧
      after.2.tree.namesFile detour.aggregation.reportPath = true := by
  decide +kernel

end Pipeline

end CoverageRun.Run
