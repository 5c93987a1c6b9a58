/-
What the exit code of a run tells. The exit codes 10 to 50 name the stage that the run failed in, and
a command of a stage that has run and not passed gives the exit code of that stage; a host that does
not get a command to run in its time, or at all, gives 1. This is settled stage by stage, of what each
can fail for and of what it makes of its calls.
-/
import CoverageRun.Proofs.Run.Configured
import CoverageRun.Proofs.Run.Protocol
import CoverageRun.Proofs.Toolchain.Changes

namespace CoverageRun

variable {σ α β : Type} {h : Host σ}

/-! ## Exit codes of stages -/

namespace Stage

/-- The exit code that names a stage. -/
def exitCode : Stage → Int
  | .provision => 10
  | .build => 20
  | .test => 30
  | .aggregate => 40
  | .publish => 50

/-- The exit codes that a run which fails in a stage can have. -/
def exitCodes : Stage → List Int
  | .publish => [50, 2]
  | s => [s.exitCode, 1]

theorem eq_of_exitCode_mem {s s' : Stage} : s'.exitCode ∈ s.exitCodes → s' = s := by
  cases s <;> cases s' <;> decide

theorem one_lt_exitCode (s : Stage) : 1 < s.exitCode := by cases s <;> decide

end Stage

/-- The stage that a command is of, by its name. -/
def Command.stage? (c : Command) : Option Stage :=
  if c.name ∈ ["rustup_toolchain_list", "rustup_toolchain_install", "rustup_component_list",
      "rustup_component_add", "tool_version", "cargo_install"] then some .provision
  else if c.name = "cargo_build" then some .build
  else if c.name = "cargo_test" then some .test
  else if c.name = "aggregate" then some .aggregate
  else none

namespace Failure

/-- A command could not be run, or not in its time. -/
def IsSystem (f : Failure) : Prop :=
  (∃ what seconds, f = .timeout what seconds) ∨ ∃ reason, f = .io reason

/-- An upload did not come about, or could not be tried. -/
def IsRefusal (f : Failure) : Prop := (∃ reason, f = .publish reason) ∨ ∃ reason, f = .config reason

theorem IsSystem.exitCode_eq {f : Failure} (hf : f.IsSystem) : f.exitCode = 1 := by
  rcases hf with ⟨_, _, rfl⟩ | ⟨_, rfl⟩ <;> rfl

end Failure

/-- A host that fails commands and uploads in the ways it is meant to. -/
structure Host.Plain (h : Host σ) : Prop where
  run : ∀ c t s f, (h.run c t s).1 = .failed f → f.IsSystem
  publish : ∀ report credential origin s f,
    (h.publish report credential origin s).1 = .failed f → f.IsRefusal

/-! ## Work that is charged -/

/-- What work of some stages fails for has an exit code of one of them; and where one of its commands
has run and not passed that must, the work fails with the exit code of the stage of that command. -/
structure Charged (stages : List Stage) (r : Except Halt α) (calls : List Call) : Prop where
  exitCode : ∀ f, r = .error (.failure f) → ∃ s ∈ stages, f.exitCode ∈ s.exitCodes
  unpassed : ∀ c out, .command c (.completed out) ∈ calls → out.passed = false →
    c.name ≠ "tool_version" → ∃ s ∈ stages, c.stage? = some s ∧
      ∃ f, r = .error (.failure f) ∧ f.exitCode = s.exitCode

abbrev Charges (stages : List Stage) (work' : Action (σ × List Call) α) (work : Action σ α) : Prop :=
  Records work' work (Charged stages)

namespace Charged

variable {stages stages' : List Stage} {s : Stage} {r : Except Halt α} {calls : List Call}

theorem mono (hr : Charged stages r calls) (hsub : stages ⊆ stages') : Charged stages' r calls := by
  constructor
  case exitCode =>
    intro f hf
    obtain ⟨s, hs, hcode⟩ := hr.exitCode f hf
    exact ⟨s, hsub hs, hcode⟩
  case unpassed =>
    intro c out hcall hp hname
    obtain ⟨s, hs, hfails⟩ := hr.unpassed c out hcall hp hname
    exact ⟨s, hsub hs, hfails⟩

theorem ok (a : α) : Charged [] (.ok a) [] := ⟨by simp, by simp⟩

end Charged

theorem Charges.bind {stages stages' : List Stage} {work' : Action (σ × List Call) α} {work : Action σ α}
    {f' : α → Action (σ × List Call) β} {f : α → Action σ β} (hwork : Charges stages work' work)
    (hnext : ∀ a, Charges stages' (f' a) (f a)) :
    Charges (stages ++ stages') (work' >>= f') (work >>= f) := by
  refine (Records.bind hwork hnext).mono ?_
  rintro r calls (⟨halt, rfl, hstop⟩ | ⟨a, first, rest, hfirst, hrest, rfl⟩)
  · -- only the type of a result that there is not changes
    have hstop' : Charged stages (.error halt : Except Halt β) calls :=
      ⟨fun f hf => hstop.exitCode f (by cases hf; rfl), fun c out hcall hp hname => by
        obtain ⟨s, hs, hc, f, hf, hcode⟩ := hstop.unpassed c out hcall hp hname
        exact ⟨s, hs, hc, f, by cases hf; rfl, hcode⟩⟩
    exact hstop'.mono (List.subset_append_left _ _)
  · have hrest' := hrest.mono (List.subset_append_right stages stages')
    refine ⟨hrest'.exitCode, fun c out hcall hp hname => ?_⟩
    rcases List.mem_append.1 hcall with hcall | hcall
    · -- the work has gone on after these calls
      obtain ⟨-, -, -, f, hf, -⟩ := hfirst.unpassed c out hcall hp hname
      cases hf
    · exact hrest'.unpassed c out hcall hp hname

theorem Charges.exitCode_mem {s : Stage} {work' : Action (σ × List Call) α} {work : Action σ α}
    (hwork : Charges [s] work' work) {w w' : World σ} {f : Failure}
    (ho : outcome work w = (.error (.failure f), w')) : f.exitCode ∈ s.exitCodes := by
  obtain ⟨hsame, -, hcharged⟩ := hwork.recording w
  rw [ho] at hsame
  obtain ⟨s', hs', hcode⟩ := hcharged.exitCode f (congrArg Prod.fst hsame).symm
  rwa [List.mem_singleton.1 hs'] at hcode

/-- Work that keeps to a plan of its stage and stops for its last call is charged to the stage. -/
theorem Charges.of_traced (hplain : h.Plain) {s : Stage} (hs : s.exitCodes = [s.exitCode, 1])
    {site : Toolchain.Site} {spec : Toolchain.Needs} {kind : Failure → Prop}
    {work' : Action (σ × List Call) α} {work : Action σ α}
    (hkeeps : Records work' work fun r calls => ∃ plan : List Command,
      (∀ c ∈ plan, c.stage? = some s) ∧ Keeps (Toolchain.accepts site spec) plan r.isOk calls)
    (htraced : Traced h (Toolchain.accepts site spec) kind work' work)
    (hkind : ∀ f, kind f → f.exitCode = s.exitCode) : Charges [s] work' work := by
  refine (hkeeps.both htraced).mono ?_
  rintro r calls ⟨⟨plan, hplan, hkeeps⟩, hstops⟩
  constructor
  case exitCode =>
    intro f hf
    obtain ⟨before, call, -, -, hstop⟩ := hstops _ hf
    refine ⟨s, List.mem_singleton.2 rfl, ?_⟩
    rw [hs]
    cases hstop with
    | unpassed _ hf => simp [hkind f hf]
    | failed hf =>
      obtain ⟨t, x, hrun⟩ := hf
      simp [(hplain.run _ _ _ _ hrun).exitCode_eq]
  case unpassed =>
    intro c out hcall hp hname
    obtain ⟨f, hf, hkindf⟩ := hstops.exists_failure hkeeps hcall (Toolchain.not_accepts hname hp)
    exact ⟨s, List.mem_singleton.2 rfl, hplan c (hkeeps.planned.subset (mem_commands hcall)), f, hf,
      hkind f hkindf⟩

/-! ## Stages -/

theorem Toolchain.charges_provision (hplain : h.Plain) (s : Site) {spec : Needs}
    (hvalid : spec.validate = .ok ()) :
    Charges [.provision] (provision h.recorded s spec) (provision h s spec) := by
  refine .of_traced hplain rfl ((records_provision s spec).mono ?_) (traced_provision hvalid) ?_
  · rintro r calls ⟨i, -, hkeeps, -⟩
    exact ⟨_, fun c hc => if_pos (plan_names s spec i c hc), hkeeps⟩
  · rintro f ⟨reason, rfl⟩
    rfl

namespace Instrumentation.Build

theorem stage?_command (b : Build) {name subcommand : String} {args : List String} {s : Stage}
    (hname : (b.command name subcommand args).stage? = some s) :
    ∀ c ∈ [b.command name subcommand args], c.stage? = some s := by
  intro c hc
  rwa [List.mem_singleton.1 hc]

theorem charges_build (hplain : h.Plain) (b : Build) (s : Toolchain.Site) (spec : Toolchain.Needs) :
    Charges [.build] (b.build h.recorded) (b.build h) := by
  have htraced : Traced h (Toolchain.accepts s spec) (fun f => ∃ reason, f = .build reason)
      (b.build h.recorded) (b.build h) :=
    .issuePassing (fun out => .returns out) (fun _ => ⟨_, rfl⟩) fun _ =>
      Toolchain.not_accepts (by
        simp [command, Command.make, Command.inDirectory, Command.withVariables])
  refine .of_traced hplain rfl ((b.records_build s spec).mono fun r calls hkeeps =>
    ⟨_, b.stage?_command rfl, hkeeps⟩) htraced ?_
  rintro f ⟨reason, rfl⟩
  rfl

theorem charges_test (hplain : h.Plain) (b : Build) (s : Toolchain.Site) (spec : Toolchain.Needs) :
    Charges [.test] (b.test h.recorded) (b.test h) := by
  have htraced : Traced h (Toolchain.accepts s spec) (fun f => ∃ reason, f = .tests reason)
      (b.test h.recorded) (b.test h) :=
    .issuePassing (fun _ => b.records_collected.mono fun _ _ ⟨hnil, a, hr, _⟩ => ⟨hnil, a, hr⟩)
      (fun _ => ⟨_, rfl⟩) fun _ => Toolchain.not_accepts (by
        simp [command, Command.make, Command.inDirectory, Command.withVariables])
  refine .of_traced hplain rfl ((b.records_test s spec).mono fun r calls hr =>
    ⟨_, b.stage?_command rfl, hr.1⟩) htraced ?_
  rintro f ⟨reason, rfl⟩
  rfl

end Instrumentation.Build

namespace Aggregation.Task

/-- An aggregation stops for itself or for the files. -/
abbrev Stopped (halt : Halt) : Prop := ∀ f, halt = .failure f → f.exitCode ∈ Stage.aggregate.exitCodes

theorem Stopped.aggregation (cause : AggregationFailure) : Stopped (.failure (.aggregation cause)) := by
  rintro f ⟨⟩
  exact .head _

theorem Stopped.ofFiles (fault : Files.Fault) : Stopped (.failure (.ofFiles fault)) := by
  rintro f ⟨⟩
  exact .tail _ (.head _)

theorem spoils_stopped (h : Host σ) (a : Task) : Spoils h a Stopped :=
  ⟨fun _ _ _ => .aggregation _, fun _ _ => .aggregation _, .ofFiles, by rintro f ⟨⟩,
    by rintro _ _ _ _ _ _ f ⟨⟩⟩

/-- The checks before the report find fault with the aggregation, where its settings are valid. -/
theorem stopped_of_ready {a : Task} (ha : a.settings.validate = .ok ()) {profiles : Profile.Collection}
    {t : Files.Tree} {refuses : List Glob.Pattern → Option String} {f : Failure}
    (hready : a.ready? profiles t refuses = .error f) : Stopped (.failure f) := by
  unfold ready? at hready
  rw [ha] at hready
  simp only at hready
  split at hready
  · cases hready
    exact .aggregation _
  split at hready
  · cases hready
    exact .aggregation _
  cases hx : a.exclusionsIn t refuses <;> rw [hx] at hready <;> cases hready
  exact .aggregation _

theorem stops_issue (hplain : h.Plain) (c : Command) : Stops Stopped (Action.issue h c) := by
  refine .issue_of_answers (fun t s f hrun => ?_) (.inr (by rintro f ⟨⟩))
  rintro f' ⟨⟩
  rw [(hplain.run _ _ _ _ hrun).exitCode_eq]
  exact .tail _ (.head _)

theorem charges_aggregate (hplain : h.Plain) {a : Task} (ha : a.settings.validate = .ok ())
    (profiles : Profile.Collection) :
    Charges [.aggregate] (a.aggregate h.recorded profiles) (a.aggregate h profiles) := by
  intro w
  rw [outcome_aggregate, outcome_aggregate, show w.plain.tree = w.tree from rfl,
    show h.recorded.refuses = h.refuses from rfl]
  cases hready : a.ready? profiles w.tree h.refuses with
  | error f =>
    refine ⟨[], rfl, by simp, by simp, ?_, by simp⟩
    rintro f' ⟨⟩
    exact ⟨_, List.mem_singleton.2 rfl, stopped_of_ready ha hready f rfl⟩
  | ok exclusions =>
    obtain ⟨calls, hsame, hhost, hissued, ⟨answer, rfl, -, hfail⟩, hstop⟩ :=
      (a.records_collectOrDiscard profiles exclusions).stopping
        (stops_collectOrDiscard (spoils_stopped h a) profiles exclusions (stops_issue hplain _)) w
    refine ⟨_, hsame, hhost, hissued, ?_, ?_⟩
    · exact fun f hf => ⟨_, List.mem_singleton.2 rfl, hstop _ hf f rfl⟩
    · intro c out hcall hp hname
      obtain ⟨rfl, rfl⟩ := Call.command.inj (List.mem_singleton.1 hcall)
      obtain ⟨cause, hcause⟩ := hfail out rfl hp
      exact ⟨_, List.mem_singleton.2 rfl, rfl, _, hcause, rfl⟩

end Aggregation.Task

theorem charges_upload (hplain : h.Plain) (report : Coverage.Report) (credential : Credential)
    (origin : Origin) :
    Charges [.publish] (Action.upload h.recorded report credential origin)
      (Action.upload h report credential origin) := by
  refine (Records.upload h report credential origin).mono ?_
  rintro r calls ⟨answer, rfl, rfl, x, hpublish⟩
  refine ⟨fun f hf => ⟨_, List.mem_singleton.2 rfl, ?_⟩, by simp⟩
  cases answer with
  | failed f' =>
    cases hf
    rcases hplain.publish _ _ _ _ _ hpublish with ⟨reason, rfl⟩ | ⟨reason, rfl⟩
    · exact .head _
    · exact .tail _ (.head _)
  | completed => cases hf
  | unending => cases hf

/-! ## Runs -/

namespace Run.Pipeline

variable {p : Pipeline} {event : Event} {origin : Origin} {credential : Credential} {w : World σ}

theorem charges_prepare (p : Pipeline) (report : Path) :
    Charges [] (p.build.prepare report : Action (σ × List Call) Unit)
      (p.build.prepare report : Action σ Unit) := by
  have hstops : Stops (fun _ => False) (p.build.prepare report : Action σ Unit) :=
    stops_prepare p report
  refine ((p.build.silent_prepare report).stopping hstops).mono ?_
  rintro r calls ⟨rfl, hnone⟩
  exact ⟨fun f hf => (hnone _ hf).elim, by simp⟩

theorem charges_work (hplain : h.Plain) (p : Pipeline) (origin : Origin) (credential : Credential) :
    Charges Stage.order (p.work h.recorded origin credential) (p.work h origin credential) := by
  have hprofiles : Charges [.provision, .build, .test] (p.profiles h.recorded) (p.profiles h) :=
    Charges.bind (Toolchain.charges_provision hplain p.site p.sections_valid.1) fun _ =>
      Charges.bind (p.charges_prepare _) fun _ =>
        Charges.bind (p.build.charges_build hplain p.site p.config.toolchain) fun _ =>
          p.build.charges_test hplain p.site p.config.toolchain
  exact Charges.bind hprofiles fun profiles =>
    Charges.bind (Aggregation.Task.charges_aggregate hplain p.sections_valid.2.2 profiles) fun report =>
      Charges.bind (charges_upload hplain report credential origin) fun _ =>
        (Records.pure ()).mono fun r calls ⟨hnil, hr⟩ => hnil ▸ hr ▸ .ok ()

theorem StopsIn.exitCode_mem (hplain : h.Plain) {s : Stage} {made : Option Coverage.Report} {f : Failure}
    {w' : World σ} (hstop : p.StopsIn h origin credential w s made (.failure f) w') :
    f.exitCode ∈ s.exitCodes := by
  cases hstop with
  | provision hprovision =>
    exact (Toolchain.charges_provision hplain p.site p.sections_valid.1).exitCode_mem hprovision
  | build _ hbuild =>
    exact (p.build.charges_build hplain p.site p.config.toolchain).exitCode_mem hbuild
  | test _ _ htest => exact (p.build.charges_test hplain p.site p.config.toolchain).exitCode_mem htest
  | aggregate _ _ _ haggregate =>
    exact (Aggregation.Task.charges_aggregate hplain p.sections_valid.2.2 _).exitCode_mem haggregate
  | publish _ hupload => exact (charges_upload hplain _ _ _).exitCode_mem hupload

/-- A run whose work does not come to an end is cut off if time is set, and has no result if not. -/
theorem run_of_unending (hstarts : p.config.trigger.starts event = true) {late : Option Late}
    (hends : (outcome (p.work h origin credential) w).1 = .error (.unending late)) :
    ∃ (w' : World σ) (q : Progress), (p.run h event origin credential w).1 =
      match p.config.runTimeout with
      | none => .error (.unending late)
      | some seconds => .ok ((p.cutOff seconds late w' q).2.result event origin) := by
  have hdrive := (p.follows_drive h origin credential w .started).1
  rw [hends] at hdrive
  rw [run_eq h p event origin credential w hstarts]
  rcases ho : outcome (p.drive h origin credential) (w, .started) with ⟨r', w', q⟩
  rw [ho] at hdrive
  cases hdrive
  refine ⟨w', q, ?_⟩
  cases p.config.runTimeout <;> rfl

theorem exitCode_of_failure {r : Result} (hr : (p.run h event origin credential w).1 = .ok r)
    (hstarts : p.config.trigger.starts event = true) {e : Ending} (he : r.failure = some e) :
    r.exitCode = e.exitCode := by
  rcases run_cases h p event origin credential w hstarts with
    ⟨r', hr', hwell, -⟩ | ⟨hr', -⟩ | ⟨htime, late, hends⟩
  · cases hr.symm.trans hr'
    have hsucceeded : r.phase ≠ .succeeded := fun hp => by cases he.symm.trans (hwell.succeeded hp)
    have hskipped : r.phase ≠ .skipped := fun hp => by cases he.symm.trans (hwell.skipped hp).2
    unfold Result.exitCode
    rw [he]
    split
    · rename_i hp
      exact absurd hp hsucceeded
    · rename_i hp
      exact absurd hp hskipped
    · rfl
  · cases hr.symm.trans hr'
  · obtain ⟨w', q, hcut⟩ := run_of_unending hstarts hends
    rw [htime] at hcut
    cases hr.symm.trans hcut

/-- An exit code of a stage is that of a run which has failed there. -/
theorem failure_of_exitCode (hplain : h.Plain) {r : Result}
    (hr : (p.run h event origin credential w).1 = .ok r) {s : Stage} (hcode : r.exitCode = s.exitCode) :
    ∃ message, r.failure = some ⟨some s, message, s.exitCode⟩ := by
  have hlt := s.one_lt_exitCode
  cases hstarts : p.config.trigger.starts event with
  | false =>
    rw [run_idle _ _ _ _ _ _ hstarts] at hr
    cases hr
    rw [← hcode] at hlt
    cases hlt
  | true =>
    obtain ⟨w', hcourse⟩ : ∃ w', p.Course h origin credential w r w' :=
      ⟨_, course_of_run hstarts (Prod.ext hr rfl)⟩
    -- a run that is cut off has the code 1, and one that has passed the code 0
    cases hcourse with
    | @failed s' made f w' hstop hf _ =>
      have hexit : f.exitCode = s.exitCode := (exitCode_of_failure hr hstarts hf).symm.trans hcode
      obtain rfl := Stage.eq_of_exitCode_mem (hexit ▸ hstop.exitCode_mem hplain)
      exact ⟨f.message, hexit ▸ hf⟩
    | cutOff _ _ _ hf _ =>
      rw [← hcode, exitCode_of_failure hr hstarts hf] at hlt
      cases hlt
    | passed _ _ hf _ =>
      rw [← hcode] at hlt
      unfold Result.exitCode at hlt
      rw [hf] at hlt
      split at hlt <;> cases hlt

theorem result_of_failure (hplain : h.Plain) (hstarts : p.config.trigger.starts event = true)
    {f : Failure} (hwork : (outcome (p.work h origin credential) w).1 = .error (.failure f)) :
    ∃ s r, (p.run h event origin credential w).1 = .ok r ∧
      r.failure = some ⟨some s, f.message, f.exitCode⟩ ∧ r.exitCode = f.exitCode ∧
      f.exitCode ∈ s.exitCodes := by
  obtain ⟨s, hfails⟩ := exists_failsIn_of_work hstarts hwork
  obtain ⟨made, w', hstop⟩ := hfails.stopsIn
  obtain ⟨r, hr, hf⟩ := hfails.result
  exact ⟨s, r, hr, hf, exitCode_of_failure hr hstarts hf, hstop.exitCode_mem hplain⟩

/-- A run whose host fails commands and uploads in no other ways than it is meant to has an exit code
that names the stage where it has one of a stage. A command that has run and not passed gives the exit
code of its stage, except the question for the tool's version. What fails for the system, or for the
time of the run, gives 1. -/
theorem run_exitCode (h : Host σ) (p : Pipeline) (event : Event) (origin : Origin)
    (credential : Credential) (w : World σ) (hplain : h.Plain) :
    (∀ r s, (p.run h event origin credential w).1 = .ok r → r.exitCode = Stage.exitCode s →
      ∃ message, r.failure = some ⟨some s, message, s.exitCode⟩) ∧
    (∀ c out, .command c (.completed out) ∈ p.calls h event origin credential w → out.passed = false →
      c.name ≠ "tool_version" → ∃ s r message, c.stage? = some s ∧
        (p.run h event origin credential w).1 = .ok r ∧
        r.failure = some ⟨some s, message, s.exitCode⟩ ∧ r.exitCode = s.exitCode) ∧
    (∀ s f, p.FailsIn h event origin credential w s f → f.IsSystem →
      ∃ r, (p.run h event origin credential w).1 = .ok r ∧ r.exitCode = 1) ∧
    (∀ late, p.config.trigger.starts event = true →
      (outcome (p.work h origin credential) w).1 = .error (.unending late) →
      p.config.runTimeout.isSome →
      ∃ r, (p.run h event origin credential w).1 = .ok r ∧ r.exitCode = 1) := by
  refine ⟨fun r s hr hcode => failure_of_exitCode hplain hr hcode, ?_, ?_, ?_⟩
  · intro c out hcall hp hname
    cases hstarts : p.config.trigger.starts event with
    | false =>
      rw [calls_idle hstarts] at hcall
      cases hcall
    | true =>
      -- clean-up issues nothing, so the calls of the run are those of its work
      obtain ⟨t, hrecorded⟩ := run_world h.recorded p event origin credential w.recording hstarts
      rw [Pipeline.calls, hrecorded] at hcall
      obtain ⟨hsame, -, hcharged⟩ := (p.charges_work hplain origin credential).recording w
      obtain ⟨s, -, hstage, f, hf, hcode⟩ := hcharged.unpassed c out hcall hp hname
      have hwork : (outcome (p.work h origin credential) w).1 = .error (.failure f) := by
        rw [hsame]
        exact hf
      obtain ⟨s', r, hr, hfailure, hexit, hmem⟩ := result_of_failure hplain hstarts hwork
      obtain rfl := Stage.eq_of_exitCode_mem (hcode ▸ hmem)
      exact ⟨s, r, f.message, hstage, hr, hcode ▸ hfailure, hexit.trans hcode⟩
  · intro s f hfails hf
    obtain ⟨r, hr, hfailure⟩ := hfails.result
    exact ⟨r, hr, (exitCode_of_failure hr hfails.1 hfailure).trans hf.exitCode_eq⟩
  · intro late hstarts hends htime
    obtain ⟨seconds, htime⟩ := Option.isSome_iff_exists.1 htime
    obtain ⟨w', q, hcut⟩ := run_of_unending hstarts hends
    rw [htime] at hcut
    exact ⟨_, hcut, exitCode_of_failure hcut hstarts rfl⟩

/-- A host whose commands pass but the tests. -/
def failingTests : Host Unit where
  run c t _ :=
    (.completed ⟨c.name, if c.name = "cargo_test" then 101 else 0, "", "", c.name != "cargo_test"⟩, t, ())
  publish _ _ _ _ := (.failed (.publish "no service"), ())

theorem plain_failingTests : failingTests.Plain :=
  ⟨by rintro c t s f ⟨⟩, by rintro r credential origin s f ⟨⟩; exact .inl ⟨_, rfl⟩⟩

/-- A call of the tests that has not passed. -/
def isFailedTest : Call → Bool
  | .command c (.completed out) => !out.passed && c.name == "cargo_test"
  | _ => false

theorem run_exitCode_failingTests :
    failingTests.Plain ∧
    ∃ r message, (standard.run failingTests ⟨.push, "refs/heads/main"⟩ (.ofCommit "c" "r") anyCredential
        project).1 = .ok r ∧ r.failure = some ⟨some .test, message, 30⟩ ∧ r.exitCode = 30 := by
  have hany : (standard.calls failingTests ⟨.push, "refs/heads/main"⟩ (.ofCommit "c" "r") anyCredential
      project).any isFailedTest = true := by decide +kernel
  obtain ⟨call, hcall, htest⟩ := List.any_eq_true.1 hany
  obtain ⟨c, answer⟩ | _ := call
  case upload => cases htest
  obtain out | _ | _ := answer
  case failed => cases htest
  case unending => cases htest
  obtain ⟨hp, hname⟩ : out.passed = false ∧ c.name = "cargo_test" := by
    simpa [isFailedTest] using htest
  obtain ⟨s, r, message, hstage, hr, hf, hexit⟩ :=
    (run_exitCode failingTests standard _ _ _ project plain_failingTests).2.1 c out hcall hp
      (by simp [hname])
  obtain rfl : s = .test := by simpa [Command.stage?, hname, eq_comm] using hstage
  exact ⟨plain_failingTests, r, message, hr, hf, hexit⟩

end Run.Pipeline

end CoverageRun
