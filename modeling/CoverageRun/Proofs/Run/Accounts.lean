/-
What the records of a run hold. Each stage files the lines of the commands that its own work has a
host run, also where the work is cut off with a command still running. So the records of a run hold
its commands, each once and in order, and each of them stands in the record of its stage.
-/
import CoverageRun.Proofs.Run.Cleanup
import CoverageRun.Proofs.Run.ExitCodes
import CoverageRun.Proofs.Run.Forgetting

namespace CoverageRun

variable {σ α β : Type} {h : Host σ}

/-! ## Calls of a stage -/

/-- The command of a call that is not answered. -/
def Call.pending? : Call → Option Command
  | .command c .unending => some c
  | _ => none

theorem Call.pending?_eq_some_iff {call : Call} {c : Command} :
    call.pending? = some c ↔ call = .command c .unending := by
  cases call with
  | command c' answer => cases answer <;> simp [pending?]
  | upload => simp [pending?]

/-- Calls of work of a stage: their commands are of the stage, and the work stops at a command that
does not come to an end. -/
structure Stage.Calls (s : Stage) (r : Except Halt α) (made : List Call) : Prop where
  ofStage : ∀ c ∈ commands made, c.stage? = some s
  inFlight : ∀ c, .command c .unending ∈ made →
    (∀ a, r ≠ .ok a) ∧ ∃ before, commands made = before ++ [c]

theorem Stage.Calls.of_keeps {s : Stage} {site : Toolchain.Site} {spec : Toolchain.Needs}
    {plan : List Command} {r : Except Halt α} {made : List Call}
    (hkeeps : Keeps (Toolchain.accepts site spec) plan r.isOk made)
    (hplan : ∀ c ∈ plan, c.stage? = some s) : s.Calls r made := by
  constructor
  case ofStage => exact fun c hc => hplan c (hkeeps.planned.subset hc)
  case inFlight =>
    intro c hc
    have hnot : Toolchain.accepts site spec (.command c .unending) = false := by
      simp [Toolchain.accepts, Answer.passes, Answer.settles]
    obtain ⟨before, after, rfl⟩ := List.append_of_mem hc
    obtain rfl := hkeeps.last_of_not_accepted rfl hnot
    refine ⟨?_, commands before, by simp [commands, Call.command?]⟩
    rintro a rfl
    rw [hkeeps.accepted rfl _ hc] at hnot
    cases hnot

theorem Stage.calls_upload {r : Except Halt α} (report : Coverage.Report) (credential : Credential)
    (origin : Origin) (answer : Answer Upload.Receipt) :
    Stage.publish.Calls r [.upload report credential origin answer] :=
  ⟨by simp [commands, Call.command?], by simp⟩

namespace Run

open Aggregation

/-! ## Records and calls -/

/-- What stands in records: the lines of the commands among calls, each once and in order, and each
in the record of its stage. A command still running is the last one of the last record. -/
structure Filed (calls : List Call) (records : List StageRecord) : Prop where
  complete : records.flatMap StageRecord.commands = (commands calls).map Command.line
  ofStage : ∀ e ∈ records, e.commands =
    ((commands calls).filter fun c => c.stage? = some e.stage).map Command.line
  recorded : ∀ c ∈ commands calls, ∃ e ∈ records, c.stage? = some e.stage
  inFlight : ∀ c, .command c .unending ∈ calls →
    ∃ before e lines, records = before ++ [e] ∧ e.commands = lines ++ [c.line]

theorem filter_stage_eq_nil {made : List Call} {s : Stage}
    (h : ∀ c ∈ commands made, c.stage? ≠ some s) :
    (commands made).filter (fun c => c.stage? = some s) = [] :=
  List.filter_eq_nil_iff.2 fun c hc hstage => h c hc (of_decide_eq_true hstage)

theorem Filed.nil : Filed [] [] := ⟨rfl, by simp, by simp, by simp⟩

/-- A stage that has not been recorded yet files the commands of its calls. -/
theorem Filed.record {calls made : List Call} {records : List StageRecord}
    (hf : Filed calls records) {s : Stage} {r : Except Halt α} (hmade : s.Calls r made)
    (hnew : s ∉ records.map StageRecord.stage)
    (hanswered : ∀ c, .command c .unending ∉ calls) (error : Option String) :
    Filed (calls ++ made) (records ++ [⟨s, (commands made).map Command.line, error⟩]) := by
  constructor
  case complete => simp [hf.complete]
  case ofStage =>
    intro e he
    rw [commands_append, List.filter_append]
    rcases List.mem_append.1 he with he | he
    · -- the calls of this stage are none of a stage before
      have hother : ∀ c ∈ commands made, c.stage? ≠ some e.stage := by
        intro c hc hstage
        have hs : s = e.stage := Option.some.inj ((hmade.ofStage c hc).symm.trans hstage)
        exact hnew (hs ▸ List.mem_map_of_mem he)
      rw [filter_stage_eq_nil hother, List.append_nil]
      exact hf.ofStage e he
    · obtain rfl := List.mem_singleton.1 he
      have hother : ∀ c ∈ commands calls, c.stage? ≠ some s := by
        intro c hc hstage
        obtain ⟨e, he, hrecord⟩ := hf.recorded c hc
        have hs : s = e.stage := Option.some.inj (hstage.symm.trans hrecord)
        exact hnew (hs ▸ List.mem_map_of_mem he)
      have hall : (commands made).filter (fun c => c.stage? = some s) = commands made :=
        List.filter_eq_self.2 fun c hc => by simp [hmade.ofStage c hc]
      simp only [filter_stage_eq_nil hother, hall, List.nil_append]
  case recorded =>
    intro c hc
    rw [commands_append] at hc
    rcases List.mem_append.1 hc with hc | hc
    · obtain ⟨e, he, hs⟩ := hf.recorded c hc
      exact ⟨e, List.mem_append_left _ he, hs⟩
    · exact ⟨_, List.mem_append_right _ List.mem_cons_self, hmade.ofStage c hc⟩
  case inFlight =>
    intro c hc
    rcases List.mem_append.1 hc with hc | hc
    · exact absurd hc (hanswered c)
    · obtain ⟨-, before, hbefore⟩ := hmade.inFlight c hc
      exact ⟨records, _, before.map Command.line, rfl, by simp [hbefore]⟩

namespace Pipeline

/-- The calls of work that begins with the run. -/
def madeBy (work : Action (σ × List Call) α) (w : World σ) : List Call :=
  (outcome work w.recording).2.host.2

/-- The calls of a run up to the end of a stage, as its work makes them. -/
def callsThrough (h : Host σ) (p : Pipeline) (origin : Origin) (credential : Credential)
    (w : World σ) : Stage → List Call
  | .provision => madeBy (Toolchain.provision h.recorded p.site p.config.toolchain) w
  | .build => madeBy (do p.cleared h.recorded; p.build.build h.recorded) w
  | .test => madeBy (p.profiles h.recorded) w
  | .aggregate => madeBy (p.reported h.recorded) w
  | .publish => madeBy (p.work h.recorded origin credential) w

/-- Records that hold the commands among calls; up to each record they hold those that the work up
to the end of its stage issues. -/
structure Accounts (h : Host σ) (p : Pipeline) (origin : Origin) (credential : Credential)
    (w : World σ) (calls : List Call) (records : List StageRecord) : Prop
    extends Filed calls records where
  through : ∀ before e, before ++ [e] <+: records →
    (before ++ [e]).flatMap StageRecord.commands =
      (commands (p.callsThrough h origin credential w e.stage)).map Command.line

variable {p : Pipeline} {origin : Origin} {credential : Credential} {w : World σ}

theorem madeBy_bind {x : Action (σ × List Call) α} {a : α} {u : World (σ × List Call)}
    (hx : outcome x w.recording = (.ok a, u)) (f : α → Action (σ × List Call) β) :
    madeBy (x >>= f) w = (outcome (f a) u).2.host.2 := by
  rw [madeBy, outcome_bind, hx]

/-- Work whose result nothing is made of changes the world as it does. -/
theorem outcome_discard (act : Action σ α) (w : World σ) :
    (outcome (do let _ ← act : Action σ Unit) w).2 = (outcome act w).2 := by
  rw [outcome_bind]
  rcases outcome act w with ⟨_ | _, _⟩ <;> rfl

/-- Up to the end of the build a run makes the calls of the stage, which clears the tree first. -/
theorem callsThrough_build {u : World (σ × List Call)}
    (hcleared : outcome (p.cleared h.recorded) w.recording =
      (.ok (), { u with tree := p.clearedTree u.tree })) :
    p.callsThrough h origin credential w .build =
      (outcome (do
        p.build.prepare p.config.aggregation.reportPath
        let _ ← p.build.build h.recorded) u).2.host.2 :=
  (madeBy_bind hcleared _).trans (by rw [outcome_bind, outcome_prepare, outcome_discard])

theorem callsThrough_publish {u : World (σ × List Call)} {report : Coverage.Report}
    (hreported : outcome (p.reported h.recorded) w.recording = (.ok report, u)) :
    p.callsThrough h origin credential w .publish =
      (outcome (Action.upload h.recorded report credential origin) u).2.host.2 := by
  rw [callsThrough, work_eq, madeBy_bind hreported, outcome_discard]

/-! ## Stages one after another -/

/-- A run in a stage whose records hold the commands issued by then, all of which were answered. -/
structure Recording (h : Host σ) (p : Pipeline) (origin : Origin) (credential : Credential)
    (w : World σ) (passed : List Stage) (s : Stage) (u : World (σ × List Call)) (q : Progress) :
    Prop where
  underway : ∃ written, q.Underway passed s written
  accounts : p.Accounts h origin credential w u.host.2 q.records
  answered : ∀ c, .command c .unending ∉ u.host.2

/-- A run that has stopped has recorded all its commands, or does so when it is cut off. -/
def Recorded (h : Host σ) (p : Pipeline) (origin : Origin) (credential : Credential) (w : World σ)
    (u : World (σ × List Call)) (q : Progress) : Halt → Prop
  | .failure _ => p.Accounts h origin credential w u.host.2 q.records
  | .unending _ =>
    ∀ f, p.Accounts h origin credential w u.host.2 (q.fail (linesSince u q.begun) f).records
  | .overflow => True

/-- Work of a stage stops, with all its commands recorded then, or the run goes on behind it. -/
theorem Recording.stage_cases {passed : List Stage} {s : Stage} {u : World (σ × List Call)}
    {q : Progress} (hq : p.Recording h origin credential w passed s u q)
    {act' : Action (σ × List Call) α} {act : Action σ α}
    (hact : Records act' act s.Calls)
    (hthrough : p.callsThrough h origin credential w s = (outcome act' u).2.host.2)
    (f : α → Work (σ × List Call) β) :
    (∃ halt u' q', outcome (stage act' >>= f) (u, q) = (.error halt, u', q') ∧
      p.Recorded h origin credential w u' q' halt) ∨
    ∃ a u' q', outcome act' u = (.ok a, u') ∧
      outcome (stage act' >>= f) (u, q) = outcome (f a) (u', q') ∧
      p.Accounts h origin credential w u'.host.2 q'.records ∧
      ∀ s', passed ++ [s] ++ [s'] <+: Stage.order → s.phase.next = s'.phase →
        p.Recording h origin credential w (passed ++ [s]) s' u' q' := by
  obtain ⟨made, -, hhost, hissued, hmade⟩ := hact u
  obtain ⟨written, hunderway⟩ := hq.underway
  have hlines : linesSince (outcome act' u).2 u.issued.length =
      (commands made).map Command.line := by
    rw [linesSince, hissued, List.drop_left]
  have hnew : s ∉ q.records.map StageRecord.stage := by
    have hnodup : (passed ++ [s]).Nodup := hunderway.order.sublist.nodup (by decide)
    rw [hunderway.stages]
    exact fun hmem => (List.nodup_append.1 hnodup).2.2 s hmem s List.mem_cons_self rfl
  have haccounts : ∀ error, p.Accounts h origin credential w (outcome act' u).2.host.2
      (q.records ++ [⟨s, linesSince (outcome act' u).2 u.issued.length, error⟩]) := by
    intro error
    have hfiled := hq.accounts.toFiled.record hmade hnew hq.answered error
    rw [hlines]
    rw [hhost] at hthrough ⊢
    refine ⟨hfiled, fun before e hprefix => ?_⟩
    rcases List.prefix_concat_iff.1 hprefix with heq | hprefix
    · obtain ⟨rfl, he⟩ := List.append_inj' heq rfl
      obtain rfl := List.cons.inj he |>.1
      rw [hthrough]
      exact hfiled.complete
    · exact hq.accounts.through before e hprefix
  rw [outcome_bind, outcome_stage]
  rcases ho : outcome act' u with ⟨(f | _ | _) | a, u'⟩ <;> rw [ho] at haccounts hmade hhost
  · refine .inl ⟨_, _, _, rfl, ?_⟩
    simpa [Recorded, Progress.fail, hunderway.phase] using haccounts (some f.message)
  · refine .inl ⟨_, _, _, rfl, fun f => ?_⟩
    simpa [Progress.fail, hunderway.phase] using haccounts (some f.message)
  · exact .inl ⟨_, _, _, rfl, trivial⟩
  · refine .inr ⟨a, u', _, rfl, rfl, ?_, fun s' horder hnext => ⟨⟨written, ?_⟩, ?_, ?_⟩⟩
    · simpa [Progress.pass, hunderway.phase] using haccounts none
    · exact (hunderway.begin _).pass horder hnext _
    · simpa [Progress.pass, hunderway.phase] using haccounts none
    · intro c hc
      rw [show u'.host.2 = u.host.2 ++ made from hhost] at hc
      rcases List.mem_append.1 hc with hc | hc
      · exact hq.answered c hc
      · exact (hmade.inFlight c hc).1 a rfl

/-! ## Calls of the stages -/

theorem calls_provision (p : Pipeline) :
    Records (Toolchain.provision h.recorded p.site p.config.toolchain)
      (Toolchain.provision h p.site p.config.toolchain) Stage.provision.Calls := by
  refine (Toolchain.records_provision p.site p.config.toolchain).mono ?_
  rintro r calls ⟨i, -, hkeeps, -⟩
  exact .of_keeps hkeeps fun c hc => if_pos (Toolchain.plan_names _ _ i c hc)

theorem calls_build (p : Pipeline) :
    Records (do p.build.prepare p.config.aggregation.reportPath; let _ ← p.build.build h.recorded)
      (do p.build.prepare p.config.aggregation.reportPath; let _ ← p.build.build h)
      Stage.build.Calls := by
  have hbuild : Records (p.build.build h.recorded) (p.build.build h) Stage.build.Calls :=
    (p.build.records_build p.site p.config.toolchain).mono fun _ _ hkeeps =>
      .of_keeps hkeeps (p.build.stage?_command rfl)
  refine (Records.bind (p.build.silent_prepare _) fun _ =>
    Records.bind hbuild fun _ => Records.pure ()).mono ?_
  rintro r calls (⟨halt, rfl, rfl⟩ | ⟨_, first, rest, rfl, hrest, rfl⟩)
  · exact ⟨by simp, by simp⟩
  rcases hrest with ⟨halt, rfl, hmade⟩ | ⟨_, first, rest, hmade, ⟨rfl, -⟩, rfl⟩
  · exact ⟨hmade.ofStage, fun c hc => ⟨by rintro a ⟨⟩, (hmade.inFlight c hc).2⟩⟩
  · rw [List.append_nil]
    exact ⟨hmade.ofStage, fun c hc => absurd rfl ((hmade.inFlight c hc).1 _)⟩

theorem calls_test (p : Pipeline) :
    Records (p.build.test h.recorded) (p.build.test h) Stage.test.Calls :=
  (p.build.records_test p.site p.config.toolchain).mono fun _ _ hr =>
    .of_keeps hr.1 (p.build.stage?_command rfl)

theorem calls_aggregate (p : Pipeline) (profiles : Profile.Collection) :
    Records (p.aggregation.aggregate h.recorded profiles) (p.aggregation.aggregate h profiles)
      Stage.aggregate.Calls :=
  (p.aggregation.records_aggregate profiles p.site p.config.toolchain).mono fun _ _ hkeeps =>
    .of_keeps hkeeps fun c hc => by rw [List.mem_singleton.1 hc]; rfl

theorem calls_publish (report : Coverage.Report) (credential : Credential) (origin : Origin) :
    Records (Action.upload h.recorded report credential origin)
      (Action.upload h report credential origin) Stage.publish.Calls :=
  (Records.upload h report credential origin).mono fun _ _ ⟨answer, hcalls, _⟩ =>
    hcalls ▸ Stage.calls_upload report credential origin answer

/-! ## Runs -/

/-- The stages of a run one after another, up to the one it stops in. -/
theorem drive_recorded (h : Host σ) (p : Pipeline) (origin : Origin) (credential : Credential)
    (w : World σ) :
    (∃ halt u q, outcome (p.drive h.recorded origin credential) (w.recording, .started) =
        (.error halt, u, q) ∧ p.Recorded h origin credential w u q halt) ∨
    ∃ u q, outcome (p.drive h.recorded origin credential) (w.recording, .started) =
        (.ok (), u, q) ∧ p.Accounts h origin credential w u.host.2 q.records := by
  have hstart : p.Recording h origin credential w [] .provision w.recording .started :=
    ⟨⟨false, Progress.underway_started⟩,
      ⟨.nil, fun before e hprefix => absurd (List.prefix_nil.1 hprefix) (by simp)⟩,
      by simp [World.recording]⟩
  unfold drive
  rcases hstart.stage_cases p.calls_provision rfl _ with
    hstop | ⟨changes, u₁, q₁, hprovision, ho, -, hq⟩
  case inl => exact .inl hstop
  unfold site at ho
  rw [ho]
  have hcleared : outcome (p.cleared h.recorded) w.recording =
      (.ok (), { u₁ with tree := p.clearedTree u₁.tree }) := by
    rw [outcome_cleared]
    exact hprovision ▸ rfl
  rcases (hq .build (by decide) rfl).stage_cases p.calls_build (callsThrough_build hcleared) _ with
    hstop | ⟨_, u₂, q₂, hstage, ho, -, hq⟩
  case inl => exact .inl hstop
  rw [ho]
  rw [outcome_buildStage] at hstage
  split at hstage <;> cases hstage
  rename_i out hbuild
  have hthrough : p.callsThrough h origin credential w .test =
      (outcome (p.build.test h.recorded) u₂).2.host.2 := by
    simp only [callsThrough, madeBy, profiles_eq, outcome_bind, hcleared, hbuild]
  rcases (hq .test (by decide) rfl).stage_cases p.calls_test hthrough _ with
    hstop | ⟨profiles, u₃, q₃, htest, ho, -, hq⟩
  case inl => exact .inl hstop
  rw [ho]
  have hprofiles : outcome (p.profiles h.recorded) w.recording = (.ok profiles, u₃) := by
    simp only [profiles_eq, outcome_bind, hcleared, hbuild, htest]
  rcases (hq .aggregate (by decide) rfl).stage_cases (p.calls_aggregate profiles)
    (madeBy_bind hprofiles _) _ with
    hstop | ⟨report, u₄, q₄, haggregate, ho, -, hq⟩
  case inl => exact .inl hstop
  rw [ho]
  have hreported : outcome (p.reported h.recorded) w.recording = (.ok report, u₄) := by
    simp only [reported, outcome_bind, hprofiles, haggregate]
  -- the report is noted down between the stage that makes it and the one that uploads it
  rw [outcome_bind, outcome_modify]
  obtain ⟨⟨_, hunderway⟩, haccounts, hanswered⟩ := hq .publish (by decide) rfl
  have hq : p.Recording h origin credential w [.provision, .build, .test, .aggregate] .publish u₄
      { q₄ with report := some (p.written report) } :=
    ⟨⟨true, hunderway.order, hunderway.phase, hunderway.stages, hunderway.success,
      hunderway.failure, hunderway.receipt, rfl⟩, haccounts, hanswered⟩
  rcases hq.stage_cases (calls_publish report credential origin) (callsThrough_publish hreported)
    (fun receipt => modify fun s => (s.1, { s.2 with receipt := some receipt })) with
    hstop | ⟨receipt, u₅, q₅, hupload, ho, haccounts, -⟩
  case inl => exact .inl hstop
  exact .inr ⟨u₅, _, ho, haccounts⟩

/-- The records of a run hold the commands that it has a host run, each once and in order, and each
in the record of the stage that issues it; a command that the run is cut off in is the last. -/
theorem run_accounts (h : Host σ) (p : Pipeline) (event : Event) (origin : Origin)
    (credential : Credential) (w : World σ) {r : Result}
    (hr : (p.run h event origin credential w).1 = .ok r) :
    p.Accounts h origin credential w (p.calls h event origin credential w) r.stages := by
  cases hstarts : p.config.trigger.starts event with
  | false =>
    rw [run_idle h p event origin credential w hstarts] at hr
    cases hr
    rw [calls_idle hstarts]
    exact ⟨.nil, fun before e hprefix => absurd (List.prefix_nil.1 hprefix) (by simp)⟩
  | true =>
    have hrun := p.run_recorded h event origin credential w.recording
    rw [show p.run h event origin credential w = _ from hrun] at hr
    rw [calls]
    rw [run_eq_conclude _ _ _ _ _ hstarts] at hr ⊢
    rcases p.drive_recorded h origin credential w with
      ⟨halt, u, q, ho, hrecorded⟩ | ⟨u, q, ho, haccounts⟩ <;> rw [ho] at hr ⊢
    case inr =>
      cases hr
      exact haccounts
    cases halt with
    | failure f =>
      cases hr
      exact hrecorded
    | overflow => cases hr
    | unending =>
      simp only [conclude, cutOff_eq] at hr ⊢
      cases htime : p.config.runTimeout with
      | none => simp [htime] at hr
      | some seconds =>
        simp only [htime] at hr ⊢
        cases hr
        exact hrecorded (outOfTime seconds)

/-- A run that is cut off while the coverage tool makes its report: its records hold all the
commands that it issued, and that of the tool is the last one. -/
theorem run_accounts_of_hanging :
    let made := limited.calls hanging ⟨.push, "refs/heads/main"⟩ (.ofCommit "c" "r") anyCredential
      Task.reported
    ∃ r before, (limited.run hanging ⟨.push, "refs/heads/main"⟩ (.ofCommit "c" "r")
        anyCredential Task.reported).1 = .ok r ∧
      .command (limited.aggregation.command ⟨"."⟩) .unending ∈ made ∧
      r.stages.flatMap StageRecord.commands = (commands made).map Command.line ∧
      r.stages.map StageRecord.stage = [.provision, .build, .test, .aggregate] ∧
      r.stages.flatMap StageRecord.commands =
        before ++ [(limited.aggregation.command ⟨"."⟩).line] := by
  intro made
  have hlast : made.getLast?.bind Call.pending? = some (limited.aggregation.command ⟨"."⟩) := by
    decide +kernel
  have hmade : .command (limited.aggregation.command ⟨"."⟩) .unending ∈ made := by
    obtain ⟨call, hcall, hpending⟩ := Option.bind_eq_some_iff.1 hlast
    exact Call.pending?_eq_some_iff.1 hpending ▸ List.mem_of_getLast? hcall
  have hstages : ((limited.run hanging ⟨.push, "refs/heads/main"⟩ (.ofCommit "c" "r") anyCredential
      Task.reported).1.toOption.map fun r => r.stages.map StageRecord.stage) =
      some [.provision, .build, .test, .aggregate] := by decide +kernel
  rcases ho : (limited.run hanging ⟨.push, "refs/heads/main"⟩ (.ofCommit "c" "r") anyCredential
    Task.reported).1 with halt | r <;> rw [ho] at hstages
  · cases hstages
  have haccounts := run_accounts hanging limited _ _ _ _ ho
  obtain ⟨before, e, lines, hbefore, hlines⟩ := haccounts.inFlight _ hmade
  refine ⟨r, before.flatMap StageRecord.commands ++ lines, rfl, hmade, haccounts.complete,
    Option.some.inj hstages, ?_⟩
  rw [hbefore, List.flatMap_append, List.flatMap_singleton, hlines, List.append_assoc]

end Pipeline

end Run

end CoverageRun
