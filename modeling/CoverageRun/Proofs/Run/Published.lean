/-
What a run publishes: the report it has made, at most once, as it is stored at the report path and
as the result of the run tells of it, whatever comes of publishing. It is stored there unless storing
it displaces what it is reached through.
-/
import CoverageRun.Proofs.Aggregation.Links
import CoverageRun.Proofs.Aggregation.Success
import CoverageRun.Proofs.Run.Course
import CoverageRun.Proofs.Run.Protocol

namespace CoverageRun

variable {σ : Type} {h : Host σ}

namespace Aggregation.Task

/-- How a report was made and stored. -/
theorem aggregate_eq_ok {a : Task} {profiles : Profile.Collection} {w w' : World σ}
    {report : Coverage.Report} (ho : outcome (a.aggregate h profiles) w = (.ok report, w')) :
    ∃ (exclusions : Coverage.Exclusions) (full : Coverage.Report) (raw : List UInt8)
      (t₁ t₂ : Files.Tree), a.exclusionsIn w.tree = .ok exclusions ∧
      report = full.retain (fun path => !exclusions.excludes path) ∧
      (a.treeAfterTool h profiles w).readBytes (rawPath a.reportPath) = .ok raw ∧
      (a.treeAfterTool h profiles w).write (stagedPath a.reportPath) report.octets = .ok t₁ ∧
      t₁.rename (stagedPath a.reportPath) a.reportPath = .ok t₂ ∧
      w'.tree = t₂.discard (rawPath a.reportPath) := by
  rw [outcome_aggregate] at ho
  cases hready : a.ready? profiles w.tree h.refuses with
  | error f => rw [hready] at ho; cases ho
  | ok exclusions =>
    rw [hready] at ho
    simp only [outcome_collectOrDiscard] at ho
    rcases hcollect : outcome (a.collect h profiles exclusions) w with ⟨(f | _ | _) | made, w₁⟩ <;>
      rw [hcollect] at ho <;> cases ho
    obtain ⟨out, text, -, -, htext, hstore⟩ := collect_eq_ok hcollect
    obtain ⟨full, t₁, t₂, -, hreport, hwrite, hrename, rfl⟩ := store_eq_ok hstore
    obtain ⟨raw, hraw⟩ := Files.Tree.readBytes_of_readText htext
    exact ⟨exclusions, full, raw, t₁, t₂, exclusionsIn_of_ready? hready, hreport, hraw, hwrite,
      hrename, rfl⟩

end Aggregation.Task

namespace Run.Pipeline

open Aggregation

variable {p : Pipeline} {event : Event} {origin : Origin} {credential : Credential} {w : World σ}

theorem tree_of_upload {report : Coverage.Report} {w' : World σ} {answer : Except Halt Upload.Receipt}
    (ho : outcome (Action.upload h report credential origin) w = (answer, w')) : w'.tree = w.tree := by
  rw [Action.outcome_upload] at ho
  rw [← (Prod.mk.inj ho).2]

/-- A run that stops with a report made stops in publishing, with the files as they were. -/
theorem StopsIn.published {w' : World σ} {s : Stage} {report : Coverage.Report} {halt : Halt}
    (hstop : p.StopsIn h origin credential w s (some report) halt w') :
    s = .publish ∧ ∃ w₁, outcome (p.reported h) w = (.ok report, w₁) ∧ w'.tree = w₁.tree := by
  cases hstop with
  | publish hmade hupload => exact ⟨rfl, _, hmade, tree_of_upload hupload⟩

/-- A result of a run that has made a report tells of that report, and the files are as storing it
left them. -/
theorem result_of_reported (hstarts : p.config.trigger.starts event = true)
    {report : Coverage.Report} {w₁ : World σ} (hmade : outcome (p.reported h) w = (.ok report, w₁))
    {r : Result} {w' : World σ} (ho : p.run h event origin credential w = (.ok r, w')) :
    w'.tree = w₁.tree ∧ r.report = some (p.written report) := by
  have hworld : ∀ {s made halt w₂}, p.StopsIn h origin credential w s made halt w₂ →
      made = some report ∧ s = .publish ∧ w₂.tree = w₁.tree := by
    intro s made halt w₂ hstop
    have hreport := hstop.reported
    rw [hmade] at hreport
    cases hreport
    obtain ⟨hs, w₃, hmade', htree⟩ := hstop.published
    rw [hmade] at hmade'
    cases hmade'
    exact ⟨rfl, hs, htree⟩
  rcases course_of_run hstarts ho with
    ⟨hstop, -, hreport⟩ | ⟨hstop, hphase, -, -, hreport⟩ | ⟨hmade', hupload, -, hreport⟩
  · obtain ⟨rfl, -, htree⟩ := hworld hstop
    exact ⟨htree, hreport⟩
  · obtain ⟨rfl, rfl, htree⟩ := hworld hstop
    refine ⟨?_, hreport⟩
    -- no report is being made any more, so nothing is discarded
    simp [cutOff, hphase, Stage.phase, htree]
  · rw [hmade] at hmade'
    cases hmade'
    exact ⟨tree_of_upload hupload, hreport⟩

/-- A run publishes at most one report. It is one the run has made: it names no path that is
excluded, and a result of the run tells its digest and its totals, whatever comes of publishing. The
report path holds it, when it is published and afterwards, exactly if storing it has displaced
nothing that it is reached through. -/
theorem run_publishes_stored (h : Host σ) (p : Pipeline) (event : Event) (origin : Origin)
    (credential : Credential) (w : World σ) :
    (uploads (p.calls h event origin credential w)).length ≤ 1 ∧
    ∀ report ∈ uploads (p.calls h event origin credential w), ∃ profiles w₁ w₂ exclusions,
      outcome (p.profiles h) w = (.ok profiles, w₁) ∧
      outcome (p.aggregation.aggregate h profiles) w₁ = (.ok report, w₂) ∧
      (w₂.tree.readBytes p.aggregation.reportPath = .ok (Text.octets report.render) ↔
        displaces (p.aggregation.treeAfterTool h profiles w₁) p.aggregation.reportPath = false) ∧
      p.aggregation.exclusionsIn w₁.tree = .ok exclusions ∧
      (∀ path ∈ report.paths, exclusions.excludes path = false) ∧
      ∀ r w', p.run h event origin credential w = (.ok r, w') →
        w'.tree = w₂.tree ∧ r.report = some ⟨p.aggregation.reportPath,
          Digest.sha256Hex (Text.octets report.render), report.summary⟩ := by
  cases hstarts : p.config.trigger.starts event with
  | false => simp [calls_idle hstarts]
  | true =>
    rw [uploads_calls hstarts]
    constructor
    · cases (outcome (p.reported h) w).1.toOption <;> simp
    intro report hreport
    rcases hmade : outcome (p.reported h) w with ⟨halt | made, w₂⟩ <;> rw [hmade] at hreport
    · cases hreport
    obtain rfl : report = made := by simpa [Except.toOption] using hreport
    have haggregate := hmade
    unfold reported at haggregate
    rw [outcome_bind] at haggregate
    rcases hprofiles : outcome (p.profiles h) w with ⟨halt | profiles, w₁⟩ <;>
      rw [hprofiles] at haggregate
    · cases haggregate
    obtain ⟨exclusions, full, raw, t₁, t₂, hexclusions, hretained, hraw, hwrite, hrename, htree⟩ :=
      Task.aggregate_eq_ok haggregate
    refine ⟨profiles, w₁, w₂, exclusions, rfl, haggregate, ?_, hexclusions, ?_,
      fun r w' => result_of_reported hstarts hmade⟩
    · rw [htree]
      exact readBytes_of_rename_iff hraw hwrite hrename
    · intro path hpath
      subst hretained
      obtain ⟨e, he, rfl⟩ := List.mem_map.1 hpath
      simpa using (List.mem_filter.1 he).2

/-- A host like one whose commands pass, but its coverage tool leaves the staged path as a link to
the raw output. -/
def linking (text : String) : Host Unit where
  run c t s :=
    let (answer, t, s) := (passing text).run c t s
    (answer, if c.name = "aggregate" then t.put ["lcov.info.tmp"] (.link "lcov.info.raw") else t, s)
  publish := (passing text).publish

/-- A report is published, and nothing is read at the report path. -/
theorem published_through_link :
    (uploads (standard.calls (linking "SF:a\nDA:1,2") ⟨.push, "refs/heads/main"⟩ (.ofCommit "c" "r")
      anyCredential project)).length = 1 ∧
    ∀ report ∈ uploads (standard.calls (linking "SF:a\nDA:1,2") ⟨.push, "refs/heads/main"⟩
      (.ofCommit "c" "r") anyCredential project),
      (standard.run (linking "SF:a\nDA:1,2") ⟨.push, "refs/heads/main"⟩ (.ofCommit "c" "r")
        anyCredential project).2.tree.readBytes standard.aggregation.reportPath ≠
          .ok (Text.octets report.render) := by
  have hread : (standard.run (linking "SF:a\nDA:1,2") ⟨.push, "refs/heads/main"⟩ (.ofCommit "c" "r")
      anyCredential project).2.tree.readBytes standard.aggregation.reportPath = .error .missing := by
    decide +kernel
  refine ⟨by decide +kernel, fun report _ => ?_⟩
  rw [hread]
  simp

end Run.Pipeline

end CoverageRun
