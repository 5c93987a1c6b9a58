/-
What an aggregation that succeeds has done: the coverage tool was called once and passed, the report
is what the exclusions leave of its raw output, and in the file tree as the tool left it nothing but
the files of the report has changed.
-/
import CoverageRun.Proofs.Aggregation.Outputs
import CoverageRun.Proofs.Aggregation.Steps
import CoverageRun.Proofs.Coverage.Exclusions
import Mathlib.Control.Monad.Basic

namespace CoverageRun.Aggregation

open Files

namespace Task

variable {σ : Type}

/-! ## Calls of the tool -/

theorem issued_perform (h : Host σ) (op : Operation) (w : World σ) :
    (outcome (Action.perform h op) w).2.issued = w.issued := by
  rw [Action.outcome_perform]
  split
  · rfl
  · split <;> rfl

theorem issued_store (h : Host σ) (a : Task) (exclusions : Coverage.Exclusions) (text : String)
    (w : World σ) : (outcome (a.store h exclusions text) w).2.issued = w.issued := by
  rw [outcome_store]
  cases Coverage.Report.parse text with
  | error e => rfl
  | ok full =>
    have hwrite := issued_perform h (.write (stagedPath a.reportPath)
      (full.retain fun p => !exclusions.excludes p).octets) w
    simp only
    split
    · rename_i ho
      rwa [ho] at hwrite
    · rename_i w' ho
      rw [ho] at hwrite
      have hrename := issued_perform h (.rename (stagedPath a.reportPath) a.reportPath) w'
      split <;> rename_i ho' <;> rw [ho'] at hrename <;> exact hrename.trans hwrite

theorem issued_collect (h : Host σ) (a : Task) (profiles : Profile.Collection)
    (exclusions : Coverage.Exclusions) (w : World σ) :
    (outcome (a.collect h profiles exclusions) w).2.issued =
      w.issued ++ [a.command profiles.root] := by
  rw [outcome_collect, Action.outcome_issue]
  cases (h.run (a.command profiles.root) w.tree w.host).1 with
  | failed f => rfl
  | unending => rfl
  | completed out =>
    simp only [Answer.toExcept]
    split
    · rw [outcome_readRaw]
      cases h.overtakes (.read (rawPath a.reportPath)) (h.run (a.command profiles.root) w.tree w.host).2.1
        (h.run (a.command profiles.root) w.tree w.host).2.2 with
      | some landing => rfl
      | none =>
        simp only
        cases (h.run (a.command profiles.root) w.tree w.host).2.1.readText (rawPath a.reportPath) with
        | error e => cases e <;> rfl
        | ok text => exact issued_store h a exclusions text _
    · rfl

/-- An aggregation calls the tool once, or not at all. -/
theorem issued_aggregate (h : Host σ) (a : Task) (profiles : Profile.Collection) (w : World σ) :
    (outcome (a.aggregate h profiles) w).2.issued = w.issued ∨
      (outcome (a.aggregate h profiles) w).2.issued = w.issued ++ [a.command profiles.root] := by
  rw [outcome_aggregate]
  cases a.ready? profiles w.tree h.refuses with
  | error f => exact .inl rfl
  | ok exclusions =>
    right
    show (outcome (a.collectOrDiscard h profiles exclusions) w).2.issued = _
    rw [← issued_collect h a profiles exclusions w, outcome_collectOrDiscard]
    rcases outcome (a.collect h profiles exclusions) w with ⟨(f | _ | _) | report, w'⟩ <;> rfl

/-! ## Success -/

/-- The tree as the tool leaves it. -/
def treeAfterTool (h : Host σ) (a : Task) (profiles : Profile.Collection) (w : World σ) : Tree :=
  (h.run (a.command profiles.root) w.tree w.host).2.1

/-- What led to a report. -/
structure Collected (h : Host σ) (a : Task) (profiles : Profile.Collection) (w w' : World σ)
    (report : Coverage.Report) : Prop where
  issued : w'.issued = w.issued ++ [a.command profiles.root]
  passed : ∃ out, (h.run (a.command profiles.root) w.tree w.host).1 = .completed out ∧ out.passed
  report : ∃ exclusions text full, a.exclusionsIn w.tree = .ok exclusions ∧
    (a.treeAfterTool h profiles w).readText (rawPath a.reportPath) = .ok text ∧
    Coverage.Report.parse text = .ok full ∧
    report.files.entries = full.files.entries.filter fun e => !exclusions.excludes e.1

theorem exclusionsIn_of_ready? {a : Task} {profiles : Profile.Collection} {t : Tree}
    {refuses : List Glob.Pattern → Option String} {exclusions : Coverage.Exclusions}
    (h : a.ready? profiles t refuses = .ok exclusions) : a.exclusionsIn t = .ok exclusions := by
  unfold ready? at h
  split at h
  · cases h
  simp only at h
  split at h
  · cases h
  split at h
  · cases h
  cases hx : a.exclusionsIn t refuses with
  | error f => rw [hx] at h; cases h
  | ok x =>
    -- a set of patterns that is not refused is what is made of them where nothing is
    rw [hx] at h
    cases h
    obtain ⟨ps, hps, rfl⟩ := Coverage.Exclusions.make_eq_ok hx
    simp only [exclusionsIn, Coverage.Exclusions.make, hps]

/-- A report that is stored has been parsed, staged and renamed. -/
theorem store_eq_ok {h : Host σ} {a : Task} {exclusions : Coverage.Exclusions} {text : String}
    {w w' : World σ} {report : Coverage.Report}
    (ho : outcome (a.store h exclusions text) w = (.ok report, w')) :
    ∃ full t₁ t₂, Coverage.Report.parse text = .ok full ∧
      report = full.retain (fun p => !exclusions.excludes p) ∧
      w.tree.write (stagedPath a.reportPath) report.octets = .ok t₁ ∧
      t₁.rename (stagedPath a.reportPath) a.reportPath = .ok t₂ ∧ w' = { w with tree := t₂ } := by
  rw [outcome_store] at ho
  cases hparse : Coverage.Report.parse text with
  | error e => rw [hparse] at ho; cases ho
  | ok full =>
    rw [hparse] at ho
    simp only at ho
    split at ho
    · cases ho
    rename_i hwrite
    obtain ⟨t₁, ht₁, rfl⟩ := Action.perform_eq_ok hwrite
    split at ho
    · cases ho
    rename_i hrename
    obtain ⟨t₂, ht₂, rfl⟩ := Action.perform_eq_ok hrename
    cases ho
    exact ⟨full, t₁, t₂, rfl, rfl, ht₁, ht₂, rfl⟩

/-- What is read of the raw output is its text. -/
theorem readRaw_eq_ok {h : Host σ} {a : Task} {exitCode : Int} {w w' : World σ} {text : String}
    (ho : outcome (a.readRaw h exitCode) w = (.ok text, w')) :
    w.tree.readText (rawPath a.reportPath) = .ok text ∧ w' = w := by
  rw [outcome_readRaw] at ho
  split at ho
  · cases ho
  · cases hread : w.tree.readText (rawPath a.reportPath) <;> rw [hread] at ho <;> cases ho
    exact ⟨rfl, rfl⟩

/-- A report that is collected was stored where the tool passed and its output was read. -/
theorem collect_eq_ok {h : Host σ} {a : Task} {profiles : Profile.Collection}
    {exclusions : Coverage.Exclusions} {w w' : World σ} {report : Coverage.Report}
    (ho : outcome (a.collect h profiles exclusions) w = (.ok report, w')) :
    ∃ out text, (h.run (a.command profiles.root) w.tree w.host).1 = .completed out ∧ out.passed ∧
      (a.treeAfterTool h profiles w).readText (rawPath a.reportPath) = .ok text ∧
      outcome (a.store h exclusions text) ⟨a.treeAfterTool h profiles w,
        (h.run (a.command profiles.root) w.tree w.host).2.2,
        w.issued ++ [a.command profiles.root]⟩ = (.ok report, w') := by
  rw [outcome_collect, Action.outcome_issue] at ho
  cases hanswer : (h.run (a.command profiles.root) w.tree w.host).1 with
  | failed f => rw [hanswer] at ho; cases ho
  | unending => rw [hanswer] at ho; cases ho
  | completed out =>
    rw [hanswer] at ho
    simp only [Answer.toExcept] at ho
    split at ho
    case isFalse => cases ho
    case isTrue hpassed =>
      split at ho
      case h_2 => cases ho
      case h_1 text _ hread =>
        obtain ⟨htext, rfl⟩ := readRaw_eq_ok hread
        exact ⟨out, text, rfl, hpassed, htext, ho⟩

/-- Where an aggregation succeeds, the tool was called once and passed, the report is what the
exclusions leave of its raw output, and unless the staged path is a link the report is stored; where
it does not, the tool was called at most once. -/
theorem aggregate_stored (h : Host σ) (a : Task) (profiles : Profile.Collection) (w : World σ) :
    (∀ report w', outcome (a.aggregate h profiles) w = (.ok report, w') →
      a.Collected h profiles w w' report ∧
      ((∀ loc target, (a.treeAfterTool h profiles w).find false (stagedPath a.reportPath) ≠
          .ok (loc, .link target)) →
        Stored (a.treeAfterTool h profiles w) w'.tree a.reportPath (Text.octets report.render))) ∧
    (∀ halt w', outcome (a.aggregate h profiles) w = (.error halt, w') →
      w'.issued = w.issued ∨ w'.issued = w.issued ++ [a.command profiles.root]) := by
  constructor
  · intro report w' ho
    rw [outcome_aggregate] at ho
    cases hready : a.ready? profiles w.tree h.refuses with
    | error f => rw [hready] at ho; cases ho
    | ok exclusions =>
      rw [hready] at ho
      simp only [outcome_collectOrDiscard] at ho
      -- where collecting stops the aggregation does, so only the report is left
      rcases hcollect : outcome (a.collect h profiles exclusions) w with ⟨(f | _ | _) | made, w₁⟩ <;>
        rw [hcollect] at ho <;> cases ho
      obtain ⟨out, text, hrun, hpassed, htext, hstore⟩ := collect_eq_ok hcollect
      obtain ⟨full, t₁, t₂, hparse, hreport, hwrite, hrename, rfl⟩ := store_eq_ok hstore
      refine ⟨⟨rfl, ⟨out, hrun, hpassed⟩, exclusions, text, full, exclusionsIn_of_ready? hready, htext,
        hparse, hreport ▸ rfl⟩, fun hlink => ?_⟩
      obtain ⟨raw, hraw⟩ := Tree.readBytes_of_readText htext
      exact stored_of_rename hraw hlink hwrite hrename
  · intro halt w' ho
    have hissued := issued_aggregate h a profiles w
    rw [ho] at hissued
    exact hissued

/-! ## Report paths with a link at them -/

/-- A project with its binaries, a directory, and a link to that directory. -/
def linked : World Unit :=
  ⟨⟨.ofList [(["target"], .directory), (["target", "debug"], .directory), (["d"], .directory),
    (["lcov"], .link "d")], []⟩, (), []⟩

/-- A host whose tool passes and leaves raw output on one line and one test. -/
def counting : Host Unit where
  run c t _ :=
    (.completed ⟨c.name, 0, "", "", true⟩,
      t.put ["lcov.raw"] (.text "SF:src/lib.rs\nDA:1,1\nend_of_record\nSF:tests/t.rs\nDA:1,2"), ())
  publish _ _ _ _ := (.failed (.publish "no service"), ())

/-- Some profiles. -/
def profile : Profile.Collection := ⟨⟨"."⟩, [⟨"a.profraw"⟩]⟩

/-- An aggregation with standard settings but for the report path. -/
def reportingTo (p : Path) : Task :=
  ⟨{ Settings.standard with reportPath := p }, "grcov", ⟨"."⟩, none, 60⟩

/-- A report takes the place of a link at its path. -/
theorem aggregate_stored_over_link :
    ∃ report w', outcome ((reportingTo ⟨"lcov"⟩).aggregate counting profile) linked =
        (.ok report, w') ∧
      w'.issued = [(reportingTo ⟨"lcov"⟩).command profile.root] ∧
      w'.tree.readBytes (reportingTo ⟨"lcov"⟩).reportPath = .ok (Text.octets report.render) ∧
      w'.tree.find false (rawPath (reportingTo ⟨"lcov"⟩).reportPath) = .error .missing ∧
      w'.tree.entry? ["d"] = some .directory := by
  have hok : (outcome ((reportingTo ⟨"lcov"⟩).aggregate counting profile) linked).1.isOk = true := by
    decide +kernel
  have hfree : ((reportingTo ⟨"lcov"⟩).treeAfterTool counting profile linked).find false
      (stagedPath (reportingTo ⟨"lcov"⟩).reportPath) = .error .missing := by decide +kernel
  have hplain : ((reportingTo ⟨"lcov"⟩).treeAfterTool counting profile linked).leadsThroughItself
      (reportingTo ⟨"lcov"⟩).reportPath = false := by decide +kernel
  rcases ho : outcome ((reportingTo ⟨"lcov"⟩).aggregate counting profile) linked with ⟨e | report, w'⟩
  · rw [ho] at hok
    cases hok
  obtain ⟨hcollected, hstored⟩ := (aggregate_stored counting _ profile linked).1 report w' ho
  have h := hstored (by simp [hfree])
  refine ⟨report, w', rfl, hcollected.issued, h.report hplain, h.raw hplain, ?_⟩
  rw [h.kept ["d"] (by decide +kernel) (by decide +kernel) (by decide +kernel)]
  decide +kernel

/-- A report path that leads through the link at it: the aggregation succeeds, and afterwards nothing
is read at that path and the raw output is still there. -/
theorem not_stored_through_link :
    ∃ report w', outcome ((reportingTo ⟨"lcov/../lcov"⟩).aggregate counting profile) linked =
        (.ok report, w') ∧
      (∀ loc target, ((reportingTo ⟨"lcov/../lcov"⟩).treeAfterTool counting profile linked).find false
        (stagedPath (reportingTo ⟨"lcov/../lcov"⟩).reportPath) ≠ .ok (loc, .link target)) ∧
      w'.tree.readBytes (reportingTo ⟨"lcov/../lcov"⟩).reportPath ≠ .ok (Text.octets report.render) ∧
      (w'.tree.entry? ["lcov.raw"]).isSome = true := by
  have hok : (outcome ((reportingTo ⟨"lcov/../lcov"⟩).aggregate counting profile) linked).1.isOk =
      true := by decide +kernel
  have hfree : ((reportingTo ⟨"lcov/../lcov"⟩).treeAfterTool counting profile linked).find false
      (stagedPath (reportingTo ⟨"lcov/../lcov"⟩).reportPath) = .error .missing := by decide +kernel
  have hread : (outcome ((reportingTo ⟨"lcov/../lcov"⟩).aggregate counting profile)
      linked).2.tree.readBytes (reportingTo ⟨"lcov/../lcov"⟩).reportPath = .error .notDirectory := by
    decide +kernel
  have hraw : ((outcome ((reportingTo ⟨"lcov/../lcov"⟩).aggregate counting profile)
      linked).2.tree.entry? ["lcov.raw"]).isSome = true := by decide +kernel
  rcases ho : outcome ((reportingTo ⟨"lcov/../lcov"⟩).aggregate counting profile) linked with
    ⟨e | report, w'⟩
  · rw [ho] at hok
    cases hok
  rw [ho] at hread hraw
  exact ⟨report, w', rfl, by simp [hfree], by simp [hread], hraw⟩

end Task

end CoverageRun.Aggregation
