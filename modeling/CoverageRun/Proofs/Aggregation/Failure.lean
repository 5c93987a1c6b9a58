/-
What an aggregation that fails leaves of its outputs. Once the coverage tool was called nothing of
them is left, whatever the tool did to the tree and wherever the work stopped. A check that is not
passed before the call ends the aggregation with everything as it was, a report of an earlier one
included.
-/
import CoverageRun.Proofs.Aggregation.Success
import CoverageRun.Proofs.Files.Visits

namespace CoverageRun.Aggregation

open Files

/-! ## Outputs -/

/-- No output of a report is there: none of their paths names a file or a link. -/
def NoOutputs (t : Tree) (report : Path) : Prop := ∀ q ∈ outputs report, t.namesFile q = false

instance (t : Tree) (report : Path) : Decidable (NoOutputs t report) :=
  inferInstanceAs (Decidable (∀ q ∈ outputs report, t.namesFile q = false))

theorem NoOutputs.mono {t t' : Tree} {report : Path} (h : NoOutputs t report)
    (hnew : ∀ q ∈ outputs report, t'.namesFile q = true → t.namesFile q = true) :
    NoOutputs t' report := by
  intro q hq
  by_contra hnames
  have hbefore := hnew q hq (Bool.of_not_eq_false hnames)
  rw [h q hq] at hbefore
  cases hbefore

/-- What is discarded stays away while the rest is. -/
theorem namesFile_foldl_discard {q : Path} : ∀ (ps : List Path) (t : Tree),
    q ∈ ps ∨ t.namesFile q = false → (ps.foldl Tree.discard t).namesFile q = false
  | [], _, h => h.resolve_left List.not_mem_nil
  | p :: ps, t, h => by
    refine namesFile_foldl_discard ps (t.discard p) ?_
    rcases h with hmem | hfree
    · rcases List.mem_cons.1 hmem with rfl | hmem
      · exact .inr (Tree.namesFile_discard t q)
      · exact .inl hmem
    · refine .inr (Bool.eq_false_iff.2 fun hnames => ?_)
      rw [Tree.namesFile_of_discard hnames] at hfree
      cases hfree

theorem noOutputs_discardOutputs (t : Tree) (report : Path) :
    NoOutputs (discardOutputs t report) report :=
  fun _ hq => namesFile_foldl_discard (outputs report) t (.inl hq)

/-- Of what happens while the outputs are discarded only those matter that have been by then. -/
theorem noOutputs_discardAround {t : Tree} {report : Path} {n : Nat} {change : Tree → Tree}
    (h : ∀ q ∈ (outputs report).take n,
      (change (((outputs report).take n).foldl Tree.discard t)).namesFile q = false) :
    NoOutputs (discardAround t report n change) report := by
  intro q hq
  refine namesFile_foldl_discard _ _ ?_
  rw [← List.take_append_drop n (outputs report)] at hq
  exact (List.mem_append.1 hq).symm.imp_right (h q)

namespace Task

variable {σ : Type}

/-! ## Failure -/

theorem collectOrDiscard_failure {h : Host σ} {a : Task} {profiles : Profile.Collection}
    {exclusions : Coverage.Exclusions} {w w' : World σ} {f : Failure}
    (ho : outcome (a.collectOrDiscard h profiles exclusions) w = (.error (.failure f), w')) :
    NoOutputs w'.tree a.reportPath := by
  rw [outcome_collectOrDiscard] at ho
  rcases hcollect : outcome (a.collect h profiles exclusions) w with ⟨(g | _ | _) | report, w₁⟩ <;>
    rw [hcollect] at ho <;> cases ho
  exact noOutputs_discardOutputs w₁.tree a.reportPath

/-- An aggregation that fails brings no output. -/
theorem noOutputs_of_aggregate {h : Host σ} {a : Task} {profiles : Profile.Collection}
    {w w' : World σ} {f : Failure} (hnone : NoOutputs w.tree a.reportPath)
    (ho : outcome (a.aggregate h profiles) w = (.error (.failure f), w')) :
    NoOutputs w'.tree a.reportPath := by
  rw [outcome_aggregate] at ho
  cases hready : a.ready? profiles w.tree h.refuses <;> rw [hready] at ho
  · cases ho
    exact hnone
  · exact collectOrDiscard_failure ho

/-- Where an aggregation fails none of its outputs is there afterwards exactly if all checks before
the call of the tool were passed, or if none was there before; a check that is not passed is what
the aggregation fails with, and nothing is changed. -/
theorem aggregate_failure (h : Host σ) (a : Task) (profiles : Profile.Collection) (w w' : World σ)
    (f : Failure) (ho : outcome (a.aggregate h profiles) w = (.error (.failure f), w')) :
    (NoOutputs w'.tree a.reportPath ↔
      (a.ready? profiles w.tree h.refuses).isOk = true ∨ NoOutputs w.tree a.reportPath) ∧
    ∀ g, a.ready? profiles w.tree h.refuses = .error g → f = g ∧ w' = w := by
  rw [outcome_aggregate] at ho
  cases hready : a.ready? profiles w.tree h.refuses with
  | error g =>
    rw [hready] at ho
    cases ho
    exact ⟨by simp [Except.isOk, Except.toBool], fun g' hg => ⟨Except.error.inj hg, rfl⟩⟩
  | ok exclusions =>
    rw [hready] at ho
    have hnone := collectOrDiscard_failure ho
    exact ⟨by simp [hnone, Except.isOk, Except.toBool], fun g hg => by cases hg⟩

/-- A host whose commands fail; before that they write parts of a report, of its raw output and of
its staged form. -/
def breaking : Host Unit where
  run c t _ :=
    (.completed ⟨c.name, 1, "", "broken", false⟩,
      ((t.put ["lcov.info"] (.text "TN:")).put ["lcov.info.raw"] (.text "SF:a")).put
        ["lcov.info.tmp"] (.link "lcov.info"), ())
  publish _ _ _ _ := (.failed (.publish "no service"), ())

/-- A project with its binaries and the report of an earlier run. -/
def reported : World Unit :=
  ⟨⟨.ofList [(["lcov.info"], .text "TN:\nSF:a\nend_of_record\n"), (["target"], .directory),
    (["target", "debug"], .directory)], []⟩, (), []⟩

theorem aggregate_failure_of_tool :
    ∃ w', outcome ((reportingTo ⟨"lcov.info"⟩).aggregate breaking profile) reported =
        (.error (.failure (.aggregation (.toolFailed "grcov" 1 "broken"))), w') ∧
      ¬ NoOutputs reported.tree (reportingTo ⟨"lcov.info"⟩).reportPath ∧
      NoOutputs w'.tree (reportingTo ⟨"lcov.info"⟩).reportPath := by
  have hready : ((reportingTo ⟨"lcov.info"⟩).ready? profile reported.tree).isOk = true := by
    decide +kernel
  have hfailure : failure? (outcome ((reportingTo ⟨"lcov.info"⟩).aggregate breaking profile)
      reported).1 = some (.aggregation (.toolFailed "grcov" 1 "broken")) := by decide +kernel
  have ho := outcome_of_failure? hfailure
  exact ⟨_, ho, by decide +kernel,
    (aggregate_failure breaking _ profile reported _ _ ho).1.2 (.inl hready)⟩

/-- An aggregation without profiles fails, and the report of an earlier one is still there. -/
theorem report_after_failed_check :
    ∃ w', outcome ((reportingTo ⟨"lcov.info"⟩).aggregate breaking ⟨⟨"."⟩, []⟩) reported =
        (.error (.failure (.aggregation (.noProfiles ⟨"."⟩))), w') ∧
      w'.tree.namesFile (reportingTo ⟨"lcov.info"⟩).reportPath = true := by
  have hfailure : failure? (outcome ((reportingTo ⟨"lcov.info"⟩).aggregate breaking ⟨⟨"."⟩, []⟩)
      reported).1 = some (.aggregation (.noProfiles ⟨"."⟩)) := by decide +kernel
  exact ⟨_, outcome_of_failure? hfailure, by decide +kernel⟩

end Task

end CoverageRun.Aggregation
