/-
Results of runs are well-formed: the stages recorded are the first ones in order, all passed but the
one that ended the run, and what a result holds besides is there exactly where the stage that makes
it passed. A run has such a result unless it is let start and what it reads of the coverage tool's
output has counts that overflow.

A run under way is known by the stages it has passed and the one it is in; each stage brings it into
the next or ends it.
-/
import CoverageRun.Proofs.Run.Work
import Mathlib.Control.Monad.Basic

namespace CoverageRun

/-- The phase in which a stage runs. -/
def Stage.phase : Stage → Phase
  | .provision => .provisioning
  | .build => .building
  | .test => .testing
  | .aggregate => .aggregating
  | .publish => .publishing

@[simp]
theorem Stage.stage?_phase (s : Stage) : s.phase.stage? = some s := by cases s <;> rfl

theorem Stage.isTerminal_phase (s : Stage) : s.phase.isTerminal = false := by cases s <;> rfl

theorem Failure.exitCode_ne_zero (f : Failure) : f.exitCode ≠ 0 := by
  cases f <;> simp [Failure.exitCode]

namespace Run

/-! ## Well-formed results -/

/-- A stage was recorded as passed. -/
def Result.Passed (r : Result) (s : Stage) : Prop := ∃ e ∈ r.stages, e.stage = s ∧ e.success

/-- A result that fits together, where the event lets the run start or does not. -/
structure Result.WellFormed (starts : Bool) (r : Result) : Prop where
  terminal : r.phase.isTerminal
  order : r.stages.map StageRecord.stage <+: Stage.order
  once : (r.stages.map StageRecord.stage).Nodup
  skipped_iff : r.phase = .skipped ↔ starts = false
  skipped : r.phase = .skipped → r.stages = [] ∧ r.failure = none
  succeeded_iff : r.phase = .succeeded ↔ r.stages.length = 5 ∧ ∀ e ∈ r.stages, e.success
  succeeded : r.phase = .succeeded → r.failure = none
  failed : r.phase = .failed → ∃ passed last message exitCode,
    r.stages = passed ++ [last] ∧ (∀ e ∈ passed, e.success) ∧ last.error = some message ∧
      r.failure = some ⟨some last.stage, message, exitCode⟩ ∧ r.exitCode ≠ 0
  exitCode_iff : r.exitCode = 0 ↔ r.phase = .succeeded ∨ r.phase = .skipped
  report_iff : r.report.isSome ↔ r.Passed .aggregate
  receipt_iff : r.receipt.isSome ↔ r.phase = .succeeded

/-! ## Runs under way -/

namespace Progress

/-- A run that has passed some stages and is in the next one; `written` tells whether it has noted
down a report. -/
structure Underway (passed : List Stage) (s : Stage) (written : Bool) (p : Progress) : Prop where
  order : passed ++ [s] <+: Stage.order
  phase : p.phase = s.phase
  stages : p.records.map StageRecord.stage = passed
  success : ∀ e ∈ p.records, e.success
  failure : p.failure = none
  receipt : p.receipt = none
  report : p.report.isSome = written

/-- A run under way that has noted down a report exactly if it has made one. -/
def Sound (p : Progress) : Prop :=
  ∃ passed s, p.Underway passed s (decide (.aggregate ∈ passed))

/-- A run that has passed all stages and noted down what they made. -/
structure Finished (p : Progress) : Prop where
  phase : p.phase = .succeeded
  stages : p.records.map StageRecord.stage = Stage.order
  success : ∀ e ∈ p.records, e.success
  failure : p.failure = none
  receipt : p.receipt.isSome
  report : p.report.isSome

variable {p : Progress} {passed : List Stage} {s : Stage} {written : Bool}

theorem Underway.begin (h : p.Underway passed s written) (begun : Nat) :
    { p with begun }.Underway passed s written :=
  ⟨h.order, h.phase, h.stages, h.success, h.failure, h.receipt, h.report⟩

/-- A stage that passes brings the run into the next one. -/
theorem Underway.pass (h : p.Underway passed s written) {s' : Stage}
    (horder : passed ++ [s] ++ [s'] <+: Stage.order) (hnext : s.phase.next = s'.phase)
    (commands : List String) : (p.pass commands).Underway (passed ++ [s]) s' written := by
  have hpass : p.pass commands =
      { p with phase := p.phase.next, records := p.records ++ [⟨s, commands, none⟩] } := by
    simp [Progress.pass, h.phase, Phase.advance]
  rw [hpass]
  refine ⟨horder, by rw [h.phase, hnext], ?_, ?_, h.failure, h.receipt, h.report⟩
  · rw [List.map_append, h.stages]; rfl
  · intro e he
    rcases List.mem_append.1 he with he | he
    · exact h.success e he
    · rw [List.mem_singleton.1 he]; rfl

/-- The progress of a run that is let start. -/
abbrev started : Progress := { idle with phase := Phase.idle.advance .succeeded }

theorem underway_started : started.Underway [] .provision false :=
  ⟨by decide, rfl, rfl, by simp [idle], rfl, rfl, rfl⟩

end Progress

/-! ## Ends of runs -/

namespace Progress

variable {p : Progress}

/-- A run under way that fails leaves a well-formed result. -/
theorem Sound.wellFormed_fail (h : p.Sound) (commands : List String) (f : Failure) (event : Event)
    (origin : Origin) : ((p.fail commands f).result event origin).WellFormed true := by
  obtain ⟨passed, s, hp⟩ := h
  have hresult : (p.fail commands f).result event origin =
      ⟨origin.runId, event, .failed, p.records ++ [⟨s, commands, some f.message⟩], p.report, none,
        some ⟨some s, f.message, f.exitCode⟩⟩ := by
    simp [fail, result, Phase.advance, hp.phase, s.isTerminal_phase, hp.receipt]
  rw [hresult]
  have hstages : (p.records ++ [(⟨s, commands, some f.message⟩ : StageRecord)]).map StageRecord.stage =
      passed ++ [s] := by
    rw [List.map_append, hp.stages]; rfl
  constructor
  case terminal => rfl
  case order => exact hstages ▸ hp.order
  case once => exact hstages ▸ hp.order.sublist.nodup (by decide)
  case skipped_iff => simp
  case skipped => intro h; cases h
  case succeeded_iff =>
    simp only [reduceCtorEq, false_iff, not_and]
    intro _ hall
    simpa [StageRecord.success] using hall ⟨s, commands, some f.message⟩ (by simp)
  case succeeded => intro h; cases h
  case failed =>
    exact fun _ => ⟨p.records, _, f.message, f.exitCode, rfl, hp.success, rfl, rfl, f.exitCode_ne_zero⟩
  case exitCode_iff => simp [Result.exitCode, f.exitCode_ne_zero]
  case receipt_iff => simp
  case report_iff =>
    simp only [hp.report, decide_eq_true_eq, Result.Passed]
    constructor
    · intro hm
      rw [← hp.stages] at hm
      obtain ⟨e, he, hs⟩ := List.mem_map.1 hm
      exact ⟨e, List.mem_append_left _ he, hs, hp.success e he⟩
    · rintro ⟨e, he, hs, hok⟩
      rcases List.mem_append.1 he with he | he
      · rw [← hp.stages, ← hs]
        exact List.mem_map_of_mem he
      · rw [List.mem_singleton.1 he] at hok
        cases hok

/-- A run that has passed all stages leaves a well-formed result. -/
theorem Finished.wellFormed (h : p.Finished) (event : Event) (origin : Origin) :
    (p.result event origin).WellFormed true := by
  -- the result says what the progress says, so the fields can be read off
  have hresult : p.result event origin =
      ⟨origin.runId, event, .succeeded, p.records, p.report, p.receipt, none⟩ := by
    simp [result, h.phase, h.failure]
  have hlength : p.records.length = 5 := by
    rw [← List.length_map StageRecord.stage, h.stages]; rfl
  rw [hresult]
  constructor
  case terminal => rfl
  case order => exact h.stages ▸ List.prefix_rfl
  case once => exact h.stages ▸ by decide
  case skipped_iff => simp
  case skipped => intro h; cases h
  case succeeded_iff => exact ⟨fun _ => ⟨hlength, h.success⟩, fun _ => rfl⟩
  case succeeded => exact fun _ => rfl
  case failed => intro h; cases h
  case exitCode_iff => simp [Result.exitCode]
  case receipt_iff => simp [h.receipt]
  case report_iff =>
    have hm : Stage.aggregate ∈ p.records.map StageRecord.stage := by rw [h.stages]; decide
    obtain ⟨e, he, hs⟩ := List.mem_map.1 hm
    exact ⟨fun _ => ⟨e, he, hs, h.success e he⟩, fun _ => h.report⟩

end Progress

theorem wellFormed_skipped (event : Event) (origin : Origin) :
    (({ Progress.idle with phase := Phase.idle.skip } : Progress).result event origin).WellFormed
      false := by
  constructor
  case terminal => rfl
  case order => exact List.nil_prefix
  case once => exact .nil
  case skipped_iff => simp [Progress.result, Phase.skip, Progress.idle]
  case skipped => exact fun _ => ⟨rfl, rfl⟩
  case succeeded_iff => simp [Progress.result, Phase.skip, Progress.idle]
  case succeeded => exact fun _ => rfl
  case failed => intro h; cases h
  case exitCode_iff => simp [Result.exitCode, Progress.result, Phase.skip, Progress.idle]
  case receipt_iff => simp [Progress.result, Phase.skip, Progress.idle]
  case report_iff => simp [Result.Passed, Progress.result, Phase.skip, Progress.idle]

/-! ## Stages one after another -/

variable {σ α β : Type}

/-- Work that brings a run from one condition into another, that leaves a run under way which has
failed where it stops for a failure, and a run under way where the host does not answer. -/
def Leads (P : Progress → Prop) (work : Work σ α) (Q : Progress → Prop) : Prop :=
  ∀ w p, P p → match outcome work (w, p) with
    | (.ok _, _, q) => Q q
    | (.error (.failure f), _, q) => ∃ p' commands, Progress.Sound p' ∧ q = p'.fail commands f
    | (.error (.unending _), _, q) => q.Sound
    | (.error .overflow, _, _) => True

namespace Leads

variable {P Q R : Progress → Prop}

theorem bind {work : Work σ α} {f : α → Work σ β} (hw : Leads P work Q)
    (hf : ∀ a, Leads Q (f a) R) : Leads P (work >>= f) R := by
  intro w p hp
  have h := hw w p hp
  rw [outcome_bind]
  rcases ho : outcome work (w, p) with ⟨(f | _ | _) | a, w', p'⟩ <;> rw [ho] at h
  · exact h
  · exact h
  · exact h
  · exact hf a w' p' h

/-- What is noted down between stages. -/
theorem account {f : Progress → Progress} (h : ∀ p, P p → Q (f p)) :
    Leads P (modify fun (w, run) => (w, f run) : Work σ PUnit) Q := fun _ p hp => h p hp

theorem stage (act : Action σ α) {passed : List Stage} {s : Stage}
    (h : ∀ (p : Progress) commands, p.Underway passed s (decide (.aggregate ∈ passed)) →
      Q (p.pass commands)) :
    Leads (·.Underway passed s (decide (.aggregate ∈ passed))) (stage act) Q := by
  intro w p hp
  have hbegun := hp.begin w.issued.length
  rw [outcome_stage]
  rcases outcome act w with ⟨(f | _ | _) | a, w'⟩
  · exact ⟨_, _, ⟨passed, s, hbegun⟩, rfl⟩
  · exact ⟨passed, s, hbegun⟩
  · trivial
  · exact h _ _ hbegun

end Leads

theorem Progress.Underway.finish {p : Progress}
    (h : p.Underway [.provision, .build, .test, .aggregate] .publish true) (commands : List String)
    (receipt : Upload.Receipt) : Finished { p.pass commands with receipt := some receipt } := by
  have hpass : p.pass commands =
      { p with phase := .succeeded, records := p.records ++ [⟨.publish, commands, none⟩] } := by
    simp [Progress.pass, h.phase, Phase.advance, Phase.next, Stage.phase, Phase.stage?]
  rw [hpass]
  refine ⟨rfl, ?_, ?_, h.failure, rfl, h.report⟩
  · rw [List.map_append, h.stages]; rfl
  · intro e he
    rcases List.mem_append.1 he with he | he
    · exact h.success e he
    · rw [List.mem_singleton.1 he]; rfl

namespace Pipeline

/-- The five stages bring a run that begins to its end, or to a failure on the way. -/
theorem leads_drive (h : Host σ) (p : Pipeline) (origin : Origin) (credential : Credential) :
    Leads (·.Underway [] .provision false) (p.drive h origin credential) Progress.Finished := by
  refine .bind (Q := (·.Underway [.provision] .build false))
    (.stage _ fun _ _ hp => hp.pass (by decide) rfl _) fun _ => ?_
  refine .bind (Q := (·.Underway [.provision, .build] .test false))
    (.stage _ fun _ _ hp => hp.pass (by decide) rfl _) fun _ => ?_
  refine .bind (Q := (·.Underway [.provision, .build, .test] .aggregate false))
    (.stage _ fun _ _ hp => hp.pass (by decide) rfl _) fun profiles => ?_
  refine .bind (Q := (·.Underway [.provision, .build, .test, .aggregate] .publish false))
    (.stage _ fun _ _ hp => hp.pass (by decide) rfl _) fun report => ?_
  -- the report is noted down between the stage that makes it and the one that uploads it
  refine .bind (Q := (·.Underway [.provision, .build, .test, .aggregate] .publish true))
    (.account fun _ hp => ⟨hp.order, hp.phase, hp.stages, hp.success, hp.failure, hp.receipt, rfl⟩)
    fun _ => ?_
  refine .bind (Q := fun q => ∀ receipt, Progress.Finished { q with receipt := some receipt })
    (.stage _ fun _ commands hp => hp.finish commands) fun receipt => ?_
  exact .account fun _ hq => hq receipt

/-- A run that is not let start is over at once. -/
theorem run_idle (h : Host σ) (p : Pipeline) (event : Event) (origin : Origin)
    (credential : Credential) (w : World σ) (hstarts : p.config.trigger.starts event = false) :
    p.run h event origin credential w =
      (.ok (({ Progress.idle with phase := Phase.idle.skip } : Progress).result event origin), w) := by
  simp [run, skipped?, hstarts]

/-- A run that is let start does its stages; where they are cut off it ends if time is set. -/
theorem run_eq (h : Host σ) (p : Pipeline) (event : Event) (origin : Origin)
    (credential : Credential) (w : World σ) (hstarts : p.config.trigger.starts event = true) :
    p.run h event origin credential w =
      match outcome (p.drive h origin credential) (w, .started) with
      | (.error .overflow, w', _) => (.error .overflow, w')
      | (.error (.unending late), w', q) =>
        match p.config.runTimeout with
        | none => (.error (.unending late), w')
        | some seconds =>
          (.ok ((p.cutOff seconds late w' q).2.result event origin), (p.cutOff seconds late w' q).1)
      | (_, w', q) => (.ok (q.result event origin), w') := by
  unfold run skipped?
  rw [if_pos hstarts]
  simp only
  rw [show StateT.run (ExceptT.run (p.drive h origin credential)) (w, .started) =
    outcome (p.drive h origin credential) (w, .started) from rfl]
  rcases outcome (p.drive h origin credential) (w, .started) with ⟨(f | _ | _) | a, w', q⟩
  · rfl
  · cases p.config.runTimeout <;> rfl
  · rfl
  · rfl

/-- The ends of a run that is let start: a well-formed result, counts that overflow, or none where
the host does not answer and no time is set. -/
theorem run_cases (h : Host σ) (p : Pipeline) (event : Event) (origin : Origin)
    (credential : Credential) (w : World σ) (hstarts : p.config.trigger.starts event = true) :
    (∃ r, (p.run h event origin credential w).1 = .ok r ∧ r.WellFormed true ∧
      (outcome (p.work h origin credential) w).1 ≠ .error .overflow) ∨
    ((p.run h event origin credential w).1 = .error .overflow ∧
      (outcome (p.work h origin credential) w).1 = .error .overflow) ∨
    (p.config.runTimeout = none ∧
      ∃ late, (outcome (p.work h origin credential) w).1 = .error (.unending late)) := by
  have hleads := leads_drive h p origin credential w _ Progress.underway_started
  obtain ⟨hwork, -⟩ := follows_drive h p origin credential w .started
  rw [run_eq h p event origin credential w hstarts, ← hwork]
  rcases ho : outcome (p.drive h origin credential) (w, .started) with ⟨(f | late | _) | a, w', q⟩ <;>
    rw [ho] at hleads
  · obtain ⟨q', commands, hq', hq⟩ := hleads
    exact .inl ⟨_, rfl, hq ▸ hq'.wellFormed_fail commands f event origin, by simp⟩
  · cases ht : p.config.runTimeout with
    | none => exact .inr (.inr ⟨rfl, late, rfl⟩)
    | some seconds =>
      exact .inl ⟨_, rfl, Progress.Sound.wellFormed_fail hleads _ _ event origin, by simp⟩
  · exact .inr (.inl ⟨rfl, rfl⟩)
  · exact .inl ⟨_, rfl, Progress.Finished.wellFormed hleads event origin, by simp⟩

/-- Where the host answers or time is set, a run has a well-formed result unless it is let start and
the counts it reads of the coverage tool's output overflow; then it has none. -/
theorem run_wellFormed_iff (h : Host σ) (p : Pipeline) (event : Event) (origin : Origin)
    (credential : Credential) (w : World σ) (hends : h.Answers ∨ p.config.runTimeout.isSome) :
    ((∃ r, (p.run h event origin credential w).1 = .ok r ∧
        r.WellFormed (p.config.trigger.starts event)) ↔
      ¬ (p.config.trigger.starts event = true ∧ ∃ text, (outcome (p.rawText h) w).1 = .ok text ∧
        Coverage.Report.parse text = .error .overflow)) ∧
    ((p.config.trigger.starts event = true ∧ ∃ text, (outcome (p.rawText h) w).1 = .ok text ∧
        Coverage.Report.parse text = .error .overflow) →
      (p.run h event origin credential w).1 = .error .overflow) := by
  rw [← work_overflow_iff h p origin credential w]
  cases hstarts : p.config.trigger.starts event with
  | false =>
    have hrun : (p.run h event origin credential w).1 =
        .ok (({ Progress.idle with phase := Phase.idle.skip } : Progress).result event origin) := by
      simp [run, skipped?, hstarts]
    simp only [reduceCtorEq, false_and, not_false_eq_true, iff_true, false_implies, and_true]
    exact ⟨_, hrun, wellFormed_skipped event origin⟩
  | true =>
    simp only [true_and]
    rcases run_cases h p event origin credential w hstarts with
      ⟨r, hr, hwell, hne⟩ | ⟨hr, hover⟩ | ⟨htime, late, hends'⟩
    · exact ⟨⟨fun _ => hne, fun _ => ⟨r, hr, hwell⟩⟩, fun hover => absurd hover hne⟩
    · exact ⟨⟨fun ⟨r, hr', _⟩ => (by rw [hr] at hr'; cases hr'), fun hne => absurd hover hne⟩,
        fun _ => hr⟩
    · rcases hends with hanswers | htimeout
      · exact absurd hends' (work_ends hanswers p origin credential w late)
      · rw [htime] at htimeout; cases htimeout

/-- A pipeline with the standard configuration. -/
def standard : Pipeline := ⟨.standard, ⟨"."⟩, by decide +kernel⟩

end Pipeline

/-- A host whose commands pass: the tests leave a profile, the coverage tool leaves a text. It takes no
uploads. -/
def passing (text : String) : Host Unit where
  run c t _ :=
    let t :=
      if c.name = "cargo_test" then t.put ["a.profraw"] (.file [] false)
      else if c.name = "aggregate" then t.put ["lcov.info.raw"] (.text text)
      else t
    (.completed ⟨c.name, 0, "", "", true⟩, t, ())
  publish _ _ _ _ := (.failed (.publish "no service"), ())

theorem answers_passing (text : String) : (passing text).Answers :=
  ⟨fun _ _ _ => by simp [passing], fun _ _ _ _ => by simp [passing], fun _ _ _ => rfl⟩

/-- A project with its binaries, as a run finds it. -/
def project : World Unit :=
  ⟨⟨.ofList [(["target"], .directory), (["target", "debug"], .directory)], []⟩, (), []⟩

/-- A credential for uploads. -/
def anyCredential : Credential := ⟨"token", by decide⟩

namespace Pipeline

theorem run_wellFormed_passing :
    (∃ r, (standard.run (passing "SF:a\nDA:1,2") ⟨.push, "refs/heads/main"⟩ (.ofCommit "c" "r")
        anyCredential project).1 = .ok r ∧ r.WellFormed true) ∧
    (standard.run (passing "SF:a\nDA:1,18446744073709551615\nDA:1,1") ⟨.push, "refs/heads/main"⟩
      (.ofCommit "c" "r") anyCredential project).1 = .error .overflow := by
  have hsmall : (outcome (standard.rawText (passing "SF:a\nDA:1,2")) project).1.toOption =
      some "SF:a\nDA:1,2" := by decide +kernel
  have hlarge : (outcome (standard.rawText (passing "SF:a\nDA:1,18446744073709551615\nDA:1,1"))
      project).1.toOption = some "SF:a\nDA:1,18446744073709551615\nDA:1,1" := by decide +kernel
  have hstarts : standard.config.trigger.starts ⟨.push, "refs/heads/main"⟩ = true := by
    decide +kernel
  constructor
  · rw [← hstarts]
    refine (run_wellFormed_iff _ standard _ _ _ project (.inl (answers_passing _))).1.2 ?_
    rintro ⟨-, text, htext, hover⟩
    rw [htext] at hsmall
    cases hsmall
    exact absurd hover (by decide +kernel)
  · refine (run_wellFormed_iff _ standard _ _ _ project (.inl (answers_passing _))).2 ⟨hstarts, _, ?_,
      show Coverage.Report.parse "SF:a\nDA:1,18446744073709551615\nDA:1,1" = _ by decide +kernel⟩
    cases ho : (outcome (standard.rawText (passing "SF:a\nDA:1,18446744073709551615\nDA:1,1"))
      project).1 with
    | error e => rw [ho] at hlarge; cases hlarge
    | ok text => rw [ho] at hlarge; cases hlarge; rfl

/-- A host that answers everything, and a run of it that has no result: the coverage tool counts a line
in two entries whose sum 64 bits do not hold. -/
theorem no_result_of_overflow :
    (passing "SF:a\nDA:1,18446744073709551615\nDA:1,1").Answers ∧
    ¬ ∃ r, (standard.run (passing "SF:a\nDA:1,18446744073709551615\nDA:1,1")
      ⟨.push, "refs/heads/main"⟩ (.ofCommit "c" "r") anyCredential project).1 = .ok r := by
  have hrun : (standard.run (passing "SF:a\nDA:1,18446744073709551615\nDA:1,1")
      ⟨.push, "refs/heads/main"⟩ (.ofCommit "c" "r") anyCredential project).1.isOk = false := by
    decide +kernel
  refine ⟨answers_passing _, ?_⟩
  rintro ⟨r, hr⟩
  rw [hr] at hrun
  cases hrun

end Pipeline

end Run

end CoverageRun
