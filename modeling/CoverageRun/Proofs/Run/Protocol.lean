/-
What a run asks of a host. The commands of a run are planned once it is told what is installed: it
issues them in order, each at most once, stops at the first that does not pass, and uploads a report
if all of them passed and the report was made. The calls are those that a recording host keeps; the
run itself is the same on it.
-/
import CoverageRun.Proofs.Profile.Collection
import CoverageRun.Proofs.Run.WellFormed
import CoverageRun.Proofs.Store.OrderedMap
import CoverageRun.Proofs.Toolchain.Protocol

namespace CoverageRun

variable {σ α β : Type} {h : Host σ}

/-! ## Calls of the stages -/

namespace Instrumentation.Build

theorem silent_prepare (b : Build) (report : Path) :
    Silent (b.prepare report : Action (σ × List Call) Unit) (b.prepare report : Action σ Unit) :=
  (Silent.ofExcept _ _).bind fun _ => Silent.tree.bind fun _ => Silent.setTree _

theorem records_build (b : Build) (s : Toolchain.Site) (spec : Toolchain.Needs) :
    Records (b.build h.recorded) (b.build h) fun r calls =>
      Keeps (Toolchain.accepts s spec) [b.command "cargo_build" "build" b.settings.buildArgs] r.isOk
        calls := by
  refine (Records.issuePassing fun out => (Records.pure out).mono fun r calls hr =>
    (⟨hr.1, out, hr.2, trivial⟩ : calls = [] ∧ ∃ a, r = .ok a ∧ True)).mono ?_
  rintro r calls ⟨answer, rfl, ⟨out, a, rfl, hp, rfl, -⟩ | ⟨hp, halt, rfl, -⟩⟩
  · exact Toolchain.keeps_of_passes s spec fun _ => hp
  · exact Toolchain.keeps_of_passes s spec (by intro hgo; cases hgo)

/-- Profiles are collected below the directory of the build. -/
theorem records_collected (b : Build) : Records
    (do return Profile.collect (← Action.tree) b.directory : Action (σ × List Call) _)
    (do return Profile.collect (← Action.tree) b.directory : Action σ _)
    fun r calls => calls = [] ∧ ∃ a, r = .ok a ∧ a.root = b.directory := by
  refine (Records.bind Records.tree fun t => Records.pure _).mono ?_
  rintro r calls (⟨halt, -, -, t, ht⟩ | ⟨t, first, rest, ⟨rfl, -⟩, ⟨rfl, rfl⟩, rfl⟩)
  · cases ht
  · exact ⟨rfl, _, rfl, Profile.root_collect t b.directory⟩

theorem records_test (b : Build) (s : Toolchain.Site) (spec : Toolchain.Needs) :
    Records (b.test h.recorded) (b.test h) fun r calls =>
      Keeps (Toolchain.accepts s spec) [b.command "cargo_test" "test" b.settings.testArgs] r.isOk
        calls ∧ ∀ profiles, r = .ok profiles → profiles.root = b.directory := by
  refine (Records.issuePassing fun _ => b.records_collected).mono ?_
  rintro r calls ⟨answer, rfl, ⟨out, a, rfl, hp, rfl, hroot⟩ | ⟨hp, halt, rfl, -⟩⟩
  · exact ⟨Toolchain.keeps_of_passes s spec fun _ => hp,
      fun profiles heq => Except.ok.inj heq ▸ hroot⟩
  · exact ⟨Toolchain.keeps_of_passes s spec (by intro hgo; cases hgo), by intro profiles heq; cases heq⟩

end Instrumentation.Build

namespace Aggregation.Task

theorem silent_readRaw (a : Task) (exitCode : Int) :
    Silent (a.readRaw h.recorded exitCode) (a.readRaw h exitCode) :=
  (Silent.await h _).bind fun _ => Silent.tree.bind fun t => by
    split
    · exact (Records.pure _).mono fun _ _ h => h.1
    · exact .fail _
    · exact .fail _

theorem silent_store (a : Task) (exclusions : Coverage.Exclusions) (text : String) :
    Silent (a.store h.recorded exclusions text) (a.store h exclusions text) := by
  refine Silent.bind ?_ fun _ => (Silent.perform h _).bind fun _ => (Silent.perform h _).bind
    fun _ => (Records.pure _).mono fun _ _ h => h.1
  unfold parse
  split
  · exact (Records.pure _).mono fun _ _ h => h.1
  · exact .fail _
  · exact (Records.throw _).mono fun _ _ h => h.1

/-- The coverage tool is called once, and what it leaves is used only if it passes. -/
theorem records_collect (a : Task) (profiles : Profile.Collection)
    (exclusions : Coverage.Exclusions) :
    Records (a.collect h.recorded profiles exclusions) (a.collect h profiles exclusions)
      fun r calls => ∃ answer, calls = [.command (a.command profiles.root) answer] ∧
        (r.isOk = true → answer.passes = true) ∧
        ∀ out, answer = .completed out → out.passed = false →
          ∃ cause, r = .error (.failure (.aggregation cause)) := by
  have hrest : ∀ exitCode, Silent (a.readRaw h.recorded exitCode >>= a.store h.recorded exclusions)
      (a.readRaw h exitCode >>= a.store h exclusions) := fun exitCode =>
    (a.silent_readRaw exitCode).bind (a.silent_store exclusions)
  refine (Records.bind (Records.issue h _) (U := fun out r calls => calls = [] ∧
    (r.isOk = true → out.passed = true) ∧
    (out.passed = false → ∃ cause, r = .error (.failure (.aggregation cause)))) fun out => ?_).mono ?_
  · simp only
    split
    · refine (Records.bind (Records.fail _) fun _ => hrest _).mono ?_
      rintro r calls (⟨halt, rfl, rfl, ⟨⟩⟩ | ⟨_, _, _, ⟨-, hr⟩, -⟩)
      · exact ⟨rfl, (by intro hr; cases hr), fun _ => ⟨_, rfl⟩⟩
      · cases hr
    · rename_i hp
      have hpassed : out.passed = true := by simpa using hp
      exact (hrest _).mono fun r calls hnil =>
        ⟨hnil, fun _ => hpassed, fun hnot => by rw [hnot] at hpassed; cases hpassed⟩
  · rintro r calls (⟨halt, rfl, answer, rfl, hr⟩ | ⟨out, first, rest, ⟨answer, rfl, hr⟩, ⟨rfl, hp⟩, rfl⟩)
    · refine ⟨answer, rfl, (by intro hok; cases hok), ?_⟩
      rintro out rfl
      cases hr
    · cases answer <;> cases hr
      exact ⟨_, rfl, hp.1, fun out heq hnot => hp.2 (Answer.completed.inj heq ▸ hnot)⟩

theorem records_collectOrDiscard (a : Task) (profiles : Profile.Collection)
    (exclusions : Coverage.Exclusions) :
    Records (a.collectOrDiscard h.recorded profiles exclusions)
      (a.collectOrDiscard h profiles exclusions)
      fun r calls => ∃ answer, calls = [.command (a.command profiles.root) answer] ∧
        (r.isOk = true → answer.passes = true) ∧
        ∀ out, answer = .completed out → out.passed = false →
          ∃ cause, r = .error (.failure (.aggregation cause)) := by
  intro w
  obtain ⟨calls, hsame, hhost, hissued, hcalls⟩ := a.records_collect profiles exclusions w
  refine ⟨calls, ?_⟩
  rw [outcome_collectOrDiscard, outcome_collectOrDiscard, hsame]
  rcases ho : outcome (a.collect h.recorded profiles exclusions) w with ⟨(f | _ | _) | report, w'⟩ <;>
    rw [ho] at hhost hissued hcalls <;> exact ⟨rfl, hhost, hissued, hcalls⟩

theorem records_aggregate (a : Task) (profiles : Profile.Collection) (s : Toolchain.Site)
    (spec : Toolchain.Needs) :
    Records (a.aggregate h.recorded profiles) (a.aggregate h profiles) fun r calls =>
      Keeps (Toolchain.accepts s spec) [a.command profiles.root] r.isOk calls := by
  intro w
  rw [outcome_aggregate, outcome_aggregate, show w.plain.tree = w.tree from rfl,
    show h.recorded.refuses = h.refuses from rfl]
  cases a.ready? profiles w.tree h.refuses with
  | error f => exact ⟨[], rfl, by simp, by simp, (Keeps.nil false).stop _⟩
  | ok exclusions =>
    obtain ⟨calls, hsame, hhost, hissued, answer, rfl, hpass, -⟩ :=
      a.records_collectOrDiscard profiles exclusions w
    exact ⟨_, hsame, hhost, hissued, Toolchain.keeps_of_passes s spec hpass⟩

end Aggregation.Task

/-! ## Plans of runs -/

namespace Run.Pipeline

/-- Where provisioning issues its commands. -/
def site (p : Pipeline) : Toolchain.Site := ⟨p.directory, p.config.stageTimeout⟩

/-- The commands of a run whose host tells this of what is installed. -/
def plan (p : Pipeline) (i : Toolchain.Inventory) : List Command :=
  Toolchain.plan p.site p.config.toolchain i ++
    ([p.build.command "cargo_build" "build" p.build.settings.buildArgs] ++
      ([p.build.command "cargo_test" "test" p.build.settings.testArgs] ++
        [p.aggregation.command p.directory]))

/-- Whether a run may go on after a call. -/
def accepts (p : Pipeline) : Call → Bool := Toolchain.accepts p.site p.config.toolchain

/-- No command of provisioning has the name of a later one. -/
theorem name_ne_of_mem_plan {s : Toolchain.Site} {spec : Toolchain.Needs} {i : Toolchain.Inventory}
    {c : Command} (hc : c ∈ Toolchain.plan s spec i) :
    c.name ≠ "cargo_build" ∧ c.name ≠ "cargo_test" ∧ c.name ≠ "aggregate" := by
  have hname := Toolchain.plan_names _ _ i c hc
  refine ⟨?_, ?_, ?_⟩ <;> rintro heq <;> rw [heq] at hname <;> simp at hname

/-- No command stands twice in a plan: the names differ, and those of components added the words. -/
theorem plan_nodup (p : Pipeline) (i : Toolchain.Inventory) : (p.plan i).Nodup := by
  refine List.nodup_append.2 ⟨Toolchain.plan_nodup _ _ i, ?_, ?_⟩
  · have hnames : ["cargo_build", "cargo_test", "aggregate"].Nodup := by decide
    exact List.Pairwise.of_map Command.name (fun _ _ hne heq => hne (congrArg _ heq)) hnames
  · intro c hc c' hc' heq
    simp only [List.mem_append, List.mem_singleton] at hc'
    obtain ⟨hbuild, htest, haggregate⟩ := name_ne_of_mem_plan hc
    rcases hc' with rfl | rfl | rfl
    · exact hbuild (congrArg Command.name heq)
    · exact htest (congrArg Command.name heq)
    · exact haggregate (congrArg Command.name heq)

/-! ## The work of a run -/

theorem records_profiles (p : Pipeline) : Records (p.profiles h.recorded) (p.profiles h)
    fun r calls => ∃ i : Toolchain.Inventory, i.ToldBy p.site p.config.toolchain calls ∧
      Keeps p.accepts (Toolchain.plan p.site p.config.toolchain i ++
        ([p.build.command "cargo_build" "build" p.build.settings.buildArgs] ++
          [p.build.command "cargo_test" "test" p.build.settings.testArgs])) r.isOk calls ∧
      ∀ profiles, r = .ok profiles → profiles.root = p.directory := by
  refine (Records.bind (Toolchain.records_provision p.site p.config.toolchain) fun _ =>
    Records.bind (p.build.silent_prepare _) fun _ =>
      Records.bind (p.build.records_build p.site p.config.toolchain) fun _ =>
        p.build.records_test p.site p.config.toolchain).mono ?_
  have hbuild : ∀ c ∈ [p.build.command "cargo_build" "build" p.build.settings.buildArgs],
      c.name ∉ Toolchain.questions := by
    simp [Instrumentation.Build.command, Command.make, Command.inDirectory, Command.withVariables,
      Toolchain.questions]
  have htest : ∀ c ∈ [p.build.command "cargo_test" "test" p.build.settings.testArgs],
      c.name ∉ Toolchain.questions := by
    simp [Instrumentation.Build.command, Command.make, Command.inDirectory, Command.withVariables,
      Toolchain.questions]
  rintro r calls (⟨halt, rfl, i, htold, hstop, -⟩ | ⟨_, first, rest, ⟨i, htold, hmade, -⟩, hrest, rfl⟩)
  · exact ⟨i, htold, hstop.stop _, by intro _ heq; cases heq⟩
  rcases hrest with ⟨halt, rfl, rfl⟩ | ⟨_, _, rest, rfl, hrest, rfl⟩
  · exact ⟨i, htold.append (.of_names i (by simp)), hmade.append ((Keeps.nil false).stop _),
      by intro _ heq; cases heq⟩
  rcases hrest with ⟨halt, rfl, hstop⟩ | ⟨_, first', rest, hpass, ⟨hlast, hroot⟩, rfl⟩
  · exact ⟨i, htold.append (.of_keeps i hstop hbuild), hmade.append (hstop.stop _),
      by intro _ heq; cases heq⟩
  · exact ⟨i, htold.append (.append (.of_keeps i hpass hbuild) (.of_keeps i hlast htest)),
      hmade.append (hpass.append hlast), hroot⟩

theorem records_reported (p : Pipeline) : Records (p.reported h.recorded) (p.reported h)
    fun r calls => ∃ i : Toolchain.Inventory, i.ToldBy p.site p.config.toolchain calls ∧
      Keeps p.accepts (p.plan i) r.isOk calls := by
  refine (Records.bind p.records_profiles fun profiles =>
    p.aggregation.records_aggregate profiles p.site p.config.toolchain).mono ?_
  rintro r calls (⟨halt, rfl, i, htold, hstop, -⟩ |
    ⟨profiles, first, rest, ⟨i, htold, hmade, hroot⟩, hlast, rfl⟩)
  · have hplan : Keeps p.accepts (p.plan i) false calls := by
      simpa only [plan, List.append_assoc] using hstop.stop [p.aggregation.command p.directory]
    exact ⟨i, htold, hplan⟩
  · rw [hroot profiles rfl] at hlast
    refine ⟨i, htold.append (.of_keeps i hlast ?_), ?_⟩
    · simp [Aggregation.Task.command, Command.make, Command.inDirectory, Command.withVariables,
        Toolchain.questions]
    · simpa only [plan, List.append_assoc] using hmade.append hlast

/-- The work of a run keeps to its plan; a report is uploaded behind all commands of the plan. -/
theorem records_work (p : Pipeline) (origin : Origin) (credential : Credential) (w : World σ) :
    ∃ calls, ∃ i : Toolchain.Inventory,
      (outcome (p.work h.recorded origin credential) w.recording).2.host.2 = calls ∧
      (outcome (p.work h origin credential) w).2.issued = w.issued ++ commands calls ∧
      i.ToldBy p.site p.config.toolchain calls ∧
      ((∃ halt, (outcome (p.reported h) w).1 = .error halt) ∧ Keeps p.accepts (p.plan i) false calls ∨
        ∃ made report answer, calls = made ++ [.upload report credential origin answer] ∧
          Keeps p.accepts (p.plan i) true made ∧ (outcome (p.reported h) w).1 = .ok report) := by
  obtain ⟨made, hsame, hhost, hissued, i, htold, hkeeps⟩ := p.records_reported w.recording
  rw [World.plain_recording] at hsame
  rw [work_eq, work_eq, outcome_bind, outcome_bind, hsame]
  rcases ho : outcome (p.reported h.recorded) w.recording with ⟨halt | report, w₁⟩ <;>
    rw [ho] at hhost hissued hkeeps
  · exact ⟨made, i, hhost, hissued, htold, .inl ⟨⟨halt, rfl⟩, hkeeps⟩⟩
  -- the upload is the one call more
  have hupload : Records
      (do let _ ← Action.upload h.recorded report credential origin : Action (σ × List Call) Unit)
      (do let _ ← Action.upload h report credential origin : Action σ Unit)
      fun _ calls => ∃ answer, calls = [.upload report credential origin answer] := by
    refine (Records.bind (Records.upload h report credential origin) fun _ => Records.pure ()).mono ?_
    rintro r calls (⟨halt, -, answer, rfl, -⟩ | ⟨_, first, rest, ⟨answer, rfl, -⟩, ⟨rfl, -⟩, rfl⟩)
    · exact ⟨answer, rfl⟩
    · exact ⟨answer, rfl⟩
  obtain ⟨calls, hsame', hhost', hissued', answer, rfl⟩ := hupload w₁
  refine ⟨made ++ [.upload report credential origin answer], i, ?_, ?_, ?_, .inr ⟨made, report, answer,
    rfl, hkeeps, rfl⟩⟩
  · simp only
    rw [hhost', hhost]
    rfl
  · simp only
    rw [hsame']
    refine hissued'.trans ?_
    rw [hissued, commands_append, List.append_assoc]
    rfl
  · exact htold.append (.of_names i (by simp [commands, Call.command?]))

/-! ## Runs on recording hosts -/

/-- The calls of a run, in order. -/
def calls (h : Host σ) (p : Pipeline) (event : Event) (origin : Origin) (credential : Credential)
    (w : World σ) : List Call :=
  (p.run h.recorded event origin credential w.recording).2.host.2

end Run.Pipeline

namespace Run

/-- Work on a run of a recording host that is other work where nothing is recorded. -/
def Mirrors (work' : Work (σ × List Call) α) (work : Work σ α) : Prop :=
  ∀ w q, outcome work (w.plain, q) =
    ((outcome work' (w, q)).1, (outcome work' (w, q)).2.1.plain, (outcome work' (w, q)).2.2)

namespace Mirrors

theorem stage {act' : Action (σ × List Call) α} {act : Action σ α}
    {T : Except Halt α → List Call → Prop} (hact : Records act' act T) :
    Mirrors (stage act') (stage act) := by
  intro w q
  obtain ⟨calls, hsame, -⟩ := hact w
  rw [outcome_stage, outcome_stage, hsame]
  rcases outcome act' w with ⟨(f | _ | _) | a, w'⟩ <;> rfl

theorem bind {work' : Work (σ × List Call) α} {work : Work σ α} {f' : α → Work (σ × List Call) β}
    {f : α → Work σ β} (hwork : Mirrors work' work) (hf : ∀ a, Mirrors (f' a) (f a)) :
    Mirrors (work' >>= f') (work >>= f) := by
  intro w q
  rw [outcome_bind, outcome_bind, hwork]
  rcases outcome work' (w, q) with ⟨halt | a, w', q'⟩
  · rfl
  · exact hf a w' q'

theorem account (f : Progress → Progress) :
    Mirrors (modify fun (w, run) => (w, f run) : Work (σ × List Call) PUnit)
      (modify fun (w, run) => (w, f run) : Work σ PUnit) := fun _ _ => rfl

end Mirrors

namespace Pipeline

theorem mirrors_drive (p : Pipeline) (origin : Origin) (credential : Credential) :
    Mirrors (p.drive h.recorded origin credential) (p.drive h origin credential) := by
  have hbuild : Records
      (do p.build.prepare p.config.aggregation.reportPath; let _ ← p.build.build h.recorded)
      (do p.build.prepare p.config.aggregation.reportPath; let _ ← p.build.build h) fun _ _ => True :=
    (Records.bind (p.build.silent_prepare _) fun _ => Records.bind
      (p.build.records_build p.site p.config.toolchain) fun _ => Records.pure ()).mono
        fun _ _ _ => trivial
  exact .bind (.stage (Toolchain.records_provision p.site p.config.toolchain)) fun _ =>
    .bind (.stage hbuild) fun _ =>
    .bind (.stage (p.build.records_test p.site p.config.toolchain)) fun profiles =>
    .bind (.stage (p.aggregation.records_aggregate profiles p.site p.config.toolchain)) fun report =>
    .bind (.account _) fun _ =>
    .bind (.stage (Records.upload h report credential origin)) fun receipt => .account _

/-- A run of a recording host is the run of the host that it stands for. -/
theorem run_recorded (h : Host σ) (p : Pipeline) (event : Event) (origin : Origin)
    (credential : Credential) (w : World (σ × List Call)) :
    p.run h event origin credential w.plain =
      ((p.run h.recorded event origin credential w).1,
        (p.run h.recorded event origin credential w).2.plain) := by
  cases hstarts : p.config.trigger.starts event with
  | false => rw [run_idle _ _ _ _ _ _ hstarts, run_idle _ _ _ _ _ _ hstarts]
  | true =>
    rw [run_eq _ _ _ _ _ _ hstarts, run_eq _ _ _ _ _ _ hstarts, mirrors_drive]
    rcases outcome (p.drive h.recorded origin credential) (w, .started) with ⟨(f | _ | _) | a, w', q⟩
    · rfl
    · simp only
      cases p.config.runTimeout with
      | none => rfl
      | some seconds =>
        simp only [cutOff]
        split <;> rfl
    · rfl
    · rfl

/-- The world after a run that is let start is that after its work, but for files discarded. -/
theorem run_world (h : Host σ) (p : Pipeline) (event : Event) (origin : Origin)
    (credential : Credential) (w : World σ) (hstarts : p.config.trigger.starts event = true) :
    ∃ t, (p.run h event origin credential w).2 =
      { (outcome (p.work h origin credential) w).2 with tree := t } := by
  obtain ⟨-, hworld⟩ := follows_drive h p origin credential w .started
  rw [run_eq h p event origin credential w hstarts, ← hworld]
  rcases outcome (p.drive h origin credential) (w, .started) with ⟨(f | _ | _) | a, w', q⟩
  · exact ⟨w'.tree, rfl⟩
  · simp only
    cases p.config.runTimeout with
    | none => exact ⟨w'.tree, rfl⟩
    | some seconds =>
      simp only [cutOff]
      split
      · exact ⟨_, rfl⟩
      · exact ⟨w'.tree, rfl⟩
  · exact ⟨w'.tree, rfl⟩
  · exact ⟨w'.tree, rfl⟩

theorem calls_idle {p : Pipeline} {event : Event} (hstarts : p.config.trigger.starts event = false)
    (h : Host σ) (origin : Origin) (credential : Credential) (w : World σ) :
    p.calls h event origin credential w = [] := by
  rw [calls, run_idle _ _ _ _ _ _ hstarts]
  rfl

/-- The calls of a run keep to its plan, and stop where no report is made. -/
theorem calls_cases {p : Pipeline} {event : Event} (hstarts : p.config.trigger.starts event = true)
    (h : Host σ) (origin : Origin) (credential : Credential) (w : World σ) :
    ∃ i : Toolchain.Inventory,
      (p.run h event origin credential w).2.issued =
        w.issued ++ commands (p.calls h event origin credential w) ∧
      i.ToldBy p.site p.config.toolchain (p.calls h event origin credential w) ∧
      ((∃ halt, (outcome (p.reported h) w).1 = .error halt) ∧
          Keeps p.accepts (p.plan i) false (p.calls h event origin credential w) ∨
        ∃ made report answer,
          p.calls h event origin credential w = made ++ [.upload report credential origin answer] ∧
          Keeps p.accepts (p.plan i) true made ∧ (outcome (p.reported h) w).1 = .ok report) := by
  obtain ⟨calls, i, hcalls, hissued, htold, hwork⟩ := p.records_work origin credential w
  obtain ⟨t, hrun⟩ := run_world h p event origin credential w hstarts
  obtain ⟨t', hrecorded⟩ := run_world h.recorded p event origin credential w.recording hstarts
  have hsame : p.calls h event origin credential w = calls := by
    rw [Pipeline.calls, hrecorded]
    exact hcalls
  rw [hsame, hrun]
  exact ⟨i, hissued, htold, hwork⟩

/-- A report is uploaded once where it is made, and none where none is. -/
theorem uploads_calls {p : Pipeline} {event : Event} (hstarts : p.config.trigger.starts event = true)
    (h : Host σ) (origin : Origin) (credential : Credential) (w : World σ) :
    uploads (p.calls h event origin credential w) = (outcome (p.reported h) w).1.toOption.toList := by
  obtain ⟨i, -, -, hwork⟩ := calls_cases hstarts h origin credential w
  rcases hwork with ⟨⟨halt, hstop⟩, hkeeps⟩ | ⟨made, report, answer, heq, hkeeps, hmade⟩
  · rw [hkeeps.uploads, hstop]
    rfl
  · rw [heq, uploads_append, hkeeps.uploads, hmade]
    rfl

end Pipeline

end Run

end CoverageRun
