/-
What an aggregation does step by step: four checks that leave everything as it is, one call of the
coverage tool, and then reading, staging and renaming.
-/
import CoverageRun.Aggregation.Aggregate
import CoverageRun.Proofs.Host.Action

namespace CoverageRun.Aggregation.Task

variable {σ : Type}

/-! ## The checks -/

/-- The exclusions seen from the source root. -/
def exclusionsIn (a : Task) (t : Files.Tree)
    (refuses : List Glob.Pattern → Option String := fun _ => none) :
    Except Coverage.Exclusions.Fault Coverage.Exclusions :=
  Coverage.Exclusions.make t (resolve a.directory a.settings.sourceRoot) a.settings.excludes refuses

/-- What is checked before the tool is called, in order: the settings, that there are profiles, that
the binaries are there, and the exclusions. -/
def ready? (a : Task) (profiles : Profile.Collection) (t : Files.Tree)
    (refuses : List Glob.Pattern → Option String := fun _ => none) :
    Except Failure Coverage.Exclusions :=
  match a.settings.validate with
  | .error f => .error (.config f.message)
  | .ok () =>
    let binaries := resolve a.directory a.settings.binaryPath
    if profiles.artifacts.isEmpty then .error (.aggregation (.noProfiles profiles.root))
    else if !t.isPresent binaries then .error (.aggregation (.missingBinaries binaries))
    else
      (a.exclusionsIn t refuses).mapError fun f =>
        .aggregation (.invalidGlob f.pattern (f.cause.message f.pattern))

/-- The work after the checks. -/
def collectOrDiscard (h : Host σ) (a : Task) (profiles : Profile.Collection)
    (exclusions : Coverage.Exclusions) : Action σ Coverage.Report :=
  tryCatch
    (do
      let report ← a.collect h profiles exclusions
      Action.setTree ((← Action.tree).discard (rawPath a.reportPath))
      return report)
    fun halt => do
      if let .failure _ := halt then
        Action.setTree (discardOutputs (← Action.tree) a.reportPath)
      throw halt

theorem outcome_exclusions (h : Host σ) (a : Task) (w : World σ) :
    outcome (a.exclusions h) w =
      ((a.exclusionsIn w.tree h.refuses).mapError fun f =>
        .failure (.aggregation (.invalidGlob f.pattern (f.cause.message f.pattern))), w) := by
  unfold exclusions
  rw [outcome_bind, Action.outcome_tree]
  show outcome (Action.ofExcept _ (a.exclusionsIn w.tree h.refuses)) w = _
  rw [Action.outcome_ofExcept]

/-- Where a check is not passed nothing is changed, else the tool is called. -/
theorem outcome_aggregate (h : Host σ) (a : Task) (profiles : Profile.Collection) (w : World σ) :
    outcome (a.aggregate h profiles) w =
      match a.ready? profiles w.tree h.refuses with
      | .ok exclusions => outcome (a.collectOrDiscard h profiles exclusions) w
      | .error f => (.error (.failure f), w) := by
  unfold aggregate ready?
  rw [outcome_bind, Action.outcome_ofExcept]
  cases a.settings.validate with
  | error f => rfl
  | ok _ =>
    simp only [mapError_ok]
    by_cases hprofiles : profiles.artifacts.isEmpty
    · rw [if_pos hprofiles, if_pos hprofiles]
      rfl
    rw [if_neg hprofiles, if_neg hprofiles, outcome_bind, Action.outcome_tree]
    by_cases hbinaries : !w.tree.isPresent (resolve a.directory a.settings.binaryPath)
    · simp only [if_pos hbinaries]
      rfl
    simp only [if_neg hbinaries]
    rw [outcome_bind, outcome_exclusions]
    cases a.exclusionsIn w.tree h.refuses <;> rfl

/-! ## The call of the tool -/

/-- What the coverage tool leaves to be read, where the checks are passed and the tool passes. -/
def raw (h : Host σ) (a : Task) (profiles : Profile.Collection) : Action σ String := do
  let _ ← Action.ofExcept (fun f => f) (a.ready? profiles (← Action.tree) h.refuses)
  let out ← Action.issue h (a.command profiles.root)
  if !out.passed then fail (.toolFailed a.tool out.exitCode (out.stderrTail 10))
  a.readRaw h out.exitCode

/-- The work after the raw output has been read: the report, staged and renamed. -/
def store (h : Host σ) (a : Task) (exclusions : Coverage.Exclusions) (text : String) :
    Action σ Coverage.Report := do
  let report ← parse text
  let report := report.retain fun p => !exclusions.excludes p
  let staged := stagedPath a.reportPath
  Action.perform h (.write staged report.octets)
  Action.perform h (.rename staged a.reportPath)
  return report

theorem outcome_collect (h : Host σ) (a : Task) (profiles : Profile.Collection)
    (exclusions : Coverage.Exclusions) (w : World σ) :
    outcome (a.collect h profiles exclusions) w =
      match outcome (Action.issue h (a.command profiles.root)) w with
      | (.ok out, w') =>
        if out.passed then
          match outcome (a.readRaw h out.exitCode) w' with
          | (.ok text, w'') => outcome (a.store h exclusions text) w''
          | (.error halt, w'') => (.error halt, w'')
        else
          (.error (.failure (.aggregation (.toolFailed a.tool out.exitCode (out.stderrTail 10)))), w')
      | (.error halt, w') => (.error halt, w') := by
  unfold collect
  rw [outcome_bind]
  rcases outcome (Action.issue h (a.command profiles.root)) w with ⟨halt | out, w'⟩
  · rfl
  by_cases hp : out.passed
  · simp only [hp, Bool.not_true, Bool.false_eq_true, if_false, if_true]
    rw [outcome_bind]
    rcases outcome (a.readRaw h out.exitCode) w' with ⟨_ | _, _⟩ <;> rfl
  · simp only [hp, Bool.not_false, if_true, Bool.false_eq_true, if_false]
    rfl

/-- Why an aggregation stops at a text that is no tracefile. -/
def haltOf : Coverage.TracefileError → Halt
  | .malformed line fault => .failure (.aggregation (.malformed line fault.text))
  | .overflow => .overflow

theorem outcome_parse (text : String) (w : World σ) :
    outcome (parse text) w = ((Coverage.Report.parse text).mapError haltOf, w) := by
  unfold parse
  rcases Coverage.Report.parse text with (_ | _) | _ <;> rfl

/-- Where a failure comes after the call of the tool, all outputs are discarded. -/
theorem outcome_collectOrDiscard (h : Host σ) (a : Task) (profiles : Profile.Collection)
    (exclusions : Coverage.Exclusions) (w : World σ) :
    outcome (a.collectOrDiscard h profiles exclusions) w =
      match outcome (a.collect h profiles exclusions) w with
      | (.ok report, w') => (.ok report, { w' with tree := w'.tree.discard (rawPath a.reportPath) })
      | (.error (.failure f), w') =>
        (.error (.failure f), { w' with tree := discardOutputs w'.tree a.reportPath })
      | (.error halt, w') => (.error halt, w') := by
  unfold collectOrDiscard
  rw [outcome_tryCatch, outcome_bind]
  rcases outcome (a.collect h profiles exclusions) w with ⟨(f | _ | _) | report, w'⟩ <;> rfl

/-- The raw output is read as text; where there is none the tool is to blame. -/
theorem outcome_readRaw (h : Host σ) (a : Task) (exitCode : Int) (w : World σ) :
    outcome (a.readRaw h exitCode) w =
      match h.overtakes (.read (rawPath a.reportPath)) w.tree w.host with
      | some landing => (.error (.unending (some ⟨.read (rawPath a.reportPath), landing⟩)), w)
      | none =>
        ((w.tree.readText (rawPath a.reportPath)).mapError fun
          | .missing => .failure (.aggregation (.toolFailed a.tool exitCode
              s!"no report written to {(rawPath a.reportPath).text}"))
          | e => .failure (.ofFiles e), w) := by
  unfold readRaw
  simp only
  rw [outcome_bind, Action.outcome_await]
  cases h.overtakes (.read (rawPath a.reportPath)) w.tree w.host with
  | some landing => rfl
  | none =>
    simp only
    rw [outcome_bind, Action.outcome_tree]
    simp only
    rcases w.tree.readText (rawPath a.reportPath) with (_ | _) | _ <;> rfl

/-- What is stored: a report staged under its own name and renamed. -/
theorem outcome_store (h : Host σ) (a : Task) (exclusions : Coverage.Exclusions) (text : String)
    (w : World σ) :
    outcome (a.store h exclusions text) w =
      match Coverage.Report.parse text with
      | .error e => (.error (haltOf e), w)
      | .ok full =>
        let report := full.retain fun p => !exclusions.excludes p
        match outcome (Action.perform h (.write (stagedPath a.reportPath) report.octets)) w with
        | (.error halt, w') => (.error halt, w')
        | (.ok _, w') =>
          match outcome (Action.perform h (.rename (stagedPath a.reportPath) a.reportPath)) w' with
          | (.error halt, w'') => (.error halt, w'')
          | (.ok _, w'') => (.ok report, w'') := by
  unfold store
  rw [outcome_bind, outcome_parse]
  cases Coverage.Report.parse text with
  | error e => rfl
  | ok full =>
    simp only [mapError_ok]
    rw [outcome_bind]
    rcases outcome (Action.perform h (.write (stagedPath a.reportPath)
      (full.retain fun p => !exclusions.excludes p).octets)) w with ⟨_ | _, w'⟩
    · rfl
    simp only
    rw [outcome_bind]
    rcases outcome (Action.perform h (.rename (stagedPath a.reportPath) a.reportPath)) w' with
      ⟨_ | _, _⟩ <;> rfl

/-! ## Counts that overflow -/

theorem perform_ne_overflow (h : Host σ) (op : Files.Operation) (w : World σ) :
    (outcome (Action.perform h op) w).1 ≠ .error .overflow := by
  rw [Action.outcome_perform]
  split
  · simp
  · split <;> simp

theorem store_overflow_iff (h : Host σ) (a : Task) (exclusions : Coverage.Exclusions) (text : String)
    (w : World σ) : (outcome (a.store h exclusions text) w).1 = .error .overflow ↔
      Coverage.Report.parse text = .error .overflow := by
  rw [outcome_store]
  rcases Coverage.Report.parse text with (_ | _) | full
  · simp [haltOf]
  · simp [haltOf]
  · simp only [reduceCtorEq, iff_false]
    -- neither of the two file operations ends in an overflow
    have hne := perform_ne_overflow h
    split
    · rename_i hwrite
      have hstop := hne (.write (stagedPath a.reportPath)
        (full.retain fun p => !exclusions.excludes p).octets) w
      rw [hwrite] at hstop
      rintro ⟨⟩
      exact hstop rfl
    · rename_i w' _
      split
      · rename_i hrename
        have hstop := hne (.rename (stagedPath a.reportPath) a.reportPath) w'
        rw [hrename] at hstop
        rintro ⟨⟩
        exact hstop rfl
      · simp

/-- An aggregation ends in an overflow exactly if what is read of the tool's output does. -/
theorem aggregate_overflow_iff (h : Host σ) (a : Task) (profiles : Profile.Collection) (w : World σ) :
    (outcome (a.aggregate h profiles) w).1 = .error .overflow ↔
      ∃ text, (outcome (a.raw h profiles) w).1 = .ok text ∧
        Coverage.Report.parse text = .error .overflow := by
  -- discarding outputs changes files only, not what the work comes to
  have hdiscard : ∀ exclusions, (outcome (a.collectOrDiscard h profiles exclusions) w).1 =
      (outcome (a.collect h profiles exclusions) w).1 := by
    intro exclusions
    rw [outcome_collectOrDiscard]
    rcases outcome (a.collect h profiles exclusions) w with ⟨(f | _ | _) | report, w'⟩ <;> rfl
  unfold raw
  rw [outcome_aggregate, outcome_bind, Action.outcome_tree]
  simp only [outcome_bind, Action.outcome_ofExcept]
  cases a.ready? profiles w.tree h.refuses with
  | error f => simp [mapError_error]
  | ok exclusions =>
    simp only [mapError_ok, hdiscard]
    rw [outcome_collect, Action.outcome_issue]
    rcases (h.run (a.command profiles.root) w.tree w.host).1 with out | f | _
    case failed => simp [Answer.toExcept]
    case unending => simp [Answer.toExcept]
    simp only [Answer.toExcept]
    by_cases hp : out.passed
    · simp only [hp, if_true, Bool.not_true, Bool.false_eq_true, if_false, outcome_readRaw]
      cases h.overtakes (.read (rawPath a.reportPath)) (h.run (a.command profiles.root) w.tree w.host).2.1
        (h.run (a.command profiles.root) w.tree w.host).2.2 with
      | some landing => simp
      | none =>
        rcases (h.run (a.command profiles.root) w.tree w.host).2.1.readText (rawPath a.reportPath)
          with (_ | _) | text <;> simp [mapError_ok, mapError_error, store_overflow_iff]
    · simp [hp, outcome_bind, fail]

end CoverageRun.Aggregation.Task
