/-
How a run keeps to its commands. They are written down here word by word, with the directory they run
in and the toolchain they are pinned to; what is installed among them is what the listings that the
host answers with do not show. A run issues them from the first on and in order, and stops at the first
that does not pass.
-/
import CoverageRun.Proofs.Run.Protocol
import CoverageRun.Proofs.Toolchain.Changes

namespace CoverageRun

/-- What is seen of a command: its words, where it runs, and the toolchain it is pinned to. -/
structure Sight where
  words : List String
  directory : Option Path
  toolchain : Option String
  deriving DecidableEq

def Command.sight (c : Command) : Sight :=
  ⟨c.words, c.directory, c.environment.get? "RUSTUP_TOOLCHAIN"⟩

namespace Toolchain

@[simp]
theorem sight_command (s : Site) (c : String × List String) :
    (s.command c).sight = ⟨c.2, some s.directory, none⟩ := rfl

/-- What is not installed, as far as answers tell: the channel and the components that the listings do
not show, and the tool if it does not tell its version. -/
structure Changes.ToldBy (lacking : Changes) (spec : Needs) (calls : List Call) : Prop where
  toolchain : ∀ c answer, .command c answer ∈ calls → c.words = ["rustup", "toolchain", "list"] →
    (lacking.toolchain = true ↔ ¬ ShowsChannel answer.output spec.channel)
  components : ∀ c answer, .command c answer ∈ calls →
    c.words = ["rustup", "component", "list", "--installed", "--toolchain", spec.channel] →
    ∀ name, name ∈ lacking.components ↔
      name ∈ spec.components.keys ∧ ¬ ShowsComponent answer.output name
  ascending : lacking.components.Pairwise fun a b => compare a b = .lt
  tool : ∀ c answer, .command c answer ∈ calls → c.words = [spec.tool, "--version"] →
    (lacking.tool = true ↔ answer.passes = false)

end Toolchain

namespace Run.Pipeline

variable {σ : Type} {h : Host σ} {p : Pipeline} {event : Event} {origin : Origin}
  {credential : Credential} {w : World σ} {calls : List Call}

/-! ## The commands of a run -/

/-- The words that the coverage tool is called with. -/
def toolWords (p : Pipeline) : List String :=
  let settings := p.config.aggregation
  [p.config.toolchain.tool, p.directory.text, "--binary-path", settings.binaryPath.text, "-s",
      settings.sourceRoot.text, "-t", settings.outputFormat] ++
    (if settings.branch then ["--branch"] else []) ++
    (if settings.ignoreNotExisting then ["--ignore-not-existing"] else []) ++
    settings.excludes.flatMap (fun pattern => ["--ignore", pattern]) ++
    ["-o", settings.reportPath.text ++ ".raw"]

/-- The commands of a run for which so much is not installed. -/
def agenda (p : Pipeline) (lacking : Toolchain.Changes) : List Sight :=
  let channel := p.config.toolchain.channel
  let tool := p.config.toolchain.tool
  let free words : Sight := ⟨words, some p.directory, none⟩
  let pinned words : Sight := ⟨words, some p.directory, some channel⟩
  [free ["rustup", "toolchain", "list"]] ++
    (if lacking.toolchain then
      [free ["rustup", "toolchain", "install", channel, "--profile", "minimal"]] else []) ++
    [free ["rustup", "component", "list", "--installed", "--toolchain", channel]] ++
    lacking.components.map (fun component =>
      free ["rustup", "component", "add", component, "--toolchain", channel]) ++
    [free [tool, "--version"]] ++
    (if lacking.tool then [free ["cargo", "install", "--locked", tool]] else []) ++
    [pinned (["cargo", "build"] ++ p.config.instrumentation.buildArgs),
      pinned (["cargo", "test"] ++ p.config.instrumentation.testArgs), pinned p.toolWords]

/-- Whether a run may not go on after a call: its command has not passed, and it is not that which
asks for the version of the tool, answered by running without success or by not being there. -/
def EndsAt (p : Pipeline) : Call → Prop
  | .command c answer => answer.passes = false ∧
      (c.words = [p.config.toolchain.tool, "--version"] → answer.settles = false)
  | .upload .. => False

theorem sight_build (p : Pipeline) (name subcommand : String) (args : List String) :
    (p.build.command name subcommand args).sight =
      ⟨["cargo", subcommand] ++ args, some p.directory, some p.config.toolchain.channel⟩ := by
  have hpinned : (p.build.command name subcommand args).environment.get? "RUSTUP_TOOLCHAIN" =
      some p.config.toolchain.channel := by
    rw [show (p.build.command name subcommand args).environment = p.build.environment from
      Store.OrderedMap.ofList_entries _]
    exact Store.OrderedMap.get?_insert_self _ _ _
  rw [Command.sight, hpinned]
  rfl

theorem sight_aggregation (p : Pipeline) : (p.aggregation.command p.directory).sight =
    ⟨p.toolWords, some p.directory, some p.config.toolchain.channel⟩ := by
  have hpinned : (p.aggregation.command p.directory).environment.get? "RUSTUP_TOOLCHAIN" =
      some p.config.toolchain.channel := Store.OrderedMap.get?_insert_self _ _ _
  rw [Command.sight, hpinned]
  rfl

/-- The plan that an inventory makes is seen as the commands for what it lacks. -/
theorem map_sight_plan (p : Pipeline) (i : Toolchain.Inventory) :
    (p.plan i).map Command.sight = p.agenda (i.changes p.config.toolchain) := by
  have hadds : (Command.sight ∘ fun c =>
        p.site.command (Toolchain.addComponent p.config.toolchain.channel c)) =
      fun c => ⟨["rustup", "component", "add", c, "--toolchain", p.config.toolchain.channel],
        some p.directory, none⟩ := rfl
  simp only [plan, Toolchain.plan, Toolchain.planFor, List.map_append, List.map_cons, List.map_nil,
    List.map_map, hadds, Toolchain.sight_command, sight_build, sight_aggregation]
  cases hlisted : Toolchain.lists i.channels p.config.toolchain.channel <;> cases htool : i.tool <;>
    simp [agenda, Toolchain.Inventory.changes, hlisted, htool, Toolchain.listChannels,
      Toolchain.installChannel, Toolchain.listComponents, Toolchain.askVersion, Toolchain.installTool,
      site, build]

/-! ## What answers tell -/

/-- The commands of a plan that ask what is installed are known by their words. -/
theorem eq_of_mem_plan {i : Toolchain.Inventory} {c : Command} (hc : c ∈ p.plan i)
    (question : String × List String)
    (hquestion : question ∈ [Toolchain.listChannels,
      Toolchain.listComponents p.config.toolchain.channel,
      Toolchain.askVersion p.config.toolchain.tool])
    (hwords : c.words = question.2) : c = p.site.command question := by
  simp only [plan, Toolchain.plan, Toolchain.planFor, List.mem_append, List.mem_map,
    List.mem_singleton, List.mem_ite_nil_left] at hc
  simp only [List.mem_cons, List.not_mem_nil, or_false] at hquestion
  rcases hquestion with rfl | rfl | rfl <;>
    rcases hc with (rfl | ⟨-, rfl⟩ | rfl | ⟨component, -, rfl⟩ | rfl | ⟨-, rfl⟩) | rfl | rfl | rfl <;>
    first
    | rfl
    | simp [Toolchain.listChannels, Toolchain.installChannel, Toolchain.listComponents,
        Toolchain.addComponent, Toolchain.askVersion, Toolchain.installTool, Toolchain.Site.command,
        Command.make, Command.inDirectory, Instrumentation.Build.command, Command.withVariables,
        Aggregation.Task.command] at hwords

/-- What an inventory lacks is what the answers do not show. -/
theorem toldBy_changes {i : Toolchain.Inventory} (htold : i.ToldBy p.site p.config.toolchain calls)
    (hplanned : commands calls <+: p.plan i) :
    (i.changes p.config.toolchain).ToldBy p.config.toolchain calls := by
  have hasked : ∀ {c answer question}, .command c answer ∈ calls →
      question ∈ [Toolchain.listChannels, Toolchain.listComponents p.config.toolchain.channel,
        Toolchain.askVersion p.config.toolchain.tool] →
      c.words = question.2 → .command (p.site.command question) answer ∈ calls := by
    intro c answer question hcall hquestion hwords
    rwa [← eq_of_mem_plan (hplanned.subset (mem_commands hcall)) question hquestion hwords]
  constructor
  case toolchain =>
    intro c answer hcall hwords
    have hlisting := htold.channels answer (hasked hcall (by simp) hwords)
    rw [hlisting, ← Toolchain.lists_iff]
    simp [Toolchain.Inventory.changes]
  case components =>
    intro c answer hcall hwords name
    have hlisting := htold.components answer (hasked hcall (by simp) hwords)
    rw [hlisting, ← Toolchain.listsComponent_iff]
    simp [Toolchain.Inventory.changes, Toolchain.missing]
  case ascending => exact Toolchain.missing_ascending _ _
  case tool =>
    intro c answer hcall hwords
    have hversion := htold.tool answer (hasked hcall (by simp) hwords)
    rw [hversion]
    simp [Toolchain.Inventory.changes]

theorem accepts_eq_false {call : Call} (hcall : p.EndsAt call) : p.accepts call = false := by
  cases call with
  | upload => cases hcall
  | command c answer =>
    obtain ⟨hpasses, hversion⟩ := hcall
    simp only [accepts, Toolchain.accepts]
    rw [hpasses, Bool.false_or, Bool.and_eq_false_iff]
    by_cases hc : c = p.site.command (Toolchain.askVersion p.config.toolchain.tool)
    · exact .inr (hversion (by rw [hc]; rfl))
    · exact .inl (beq_false_of_ne hc)

theorem endsAt_of_mem {i : Toolchain.Inventory} {call : Call} (hcall : call ∈ calls)
    (hplanned : commands calls <+: p.plan i) (hnot : p.accepts call = false) : p.EndsAt call := by
  cases call with
  | upload => cases hnot
  | command c answer =>
    unfold accepts Toolchain.accepts at hnot
    obtain ⟨hpasses, hversion⟩ := Bool.or_eq_false_iff.1 hnot
    refine ⟨hpasses, fun hwords => ?_⟩
    obtain rfl := eq_of_mem_plan (hplanned.subset (mem_commands hcall))
      (Toolchain.askVersion p.config.toolchain.tool) (by simp) hwords
    simpa using hversion

/-! ## How far a run goes -/

section Uploaded

variable {plan : List Command} {made : List Call} {report : Coverage.Report}
  {answer : Answer Upload.Receipt}

/-- An upload behind a whole plan adds no command to it. -/
theorem commands_upload (h : Keeps p.accepts plan true made) :
    commands (made ++ [.upload report credential origin answer]) = plan := by
  rw [commands_append, h.complete rfl]
  exact List.append_nil plan

/-- Where a report is uploaded behind a whole plan the run may go on after every call. -/
theorem accepts_upload (h : Keeps p.accepts plan true made) {call : Call}
    (hcall : call ∈ made ++ [.upload report credential origin answer]) : p.accepts call = true := by
  rcases List.mem_append.1 hcall with hmade | hupload
  · exact h.accepted rfl call hmade
  · rw [List.mem_singleton.1 hupload]
    rfl

end Uploaded

/-- The command that tests the project. -/
def testing (p : Pipeline) : Command :=
  p.build.command "cargo_test" "test" p.build.settings.testArgs

theorem not_accepts_build {name subcommand : String} {args : List String}
    (hname : name ≠ "tool_version") {answer : Answer Completion} (hp : answer.passes = false) :
    p.accepts (.command (p.build.command name subcommand args) answer) = false :=
  Toolchain.not_accepts hname hp

/-- Up to its profiles a run stops for its last call, if it stops. -/
theorem traced_profiles (p : Pipeline) :
    Traced h p.accepts (fun _ => True) (p.profiles h.recorded) (p.profiles h) := by
  have hprovision : Traced h p.accepts (fun _ => True) (Toolchain.provision h.recorded p.site
      p.config.toolchain) (Toolchain.provision h p.site p.config.toolchain) :=
    (Toolchain.traced_provision p.sections_valid.1).mono fun _ _ => trivial
  have hprepare : Traced h p.accepts (fun _ => True)
      (p.build.prepare p.config.aggregation.reportPath : Action (σ × List Call) Unit)
      (p.build.prepare p.config.aggregation.reportPath : Action σ Unit) := by
    have hstops : Stops (fun _ => False)
        (p.build.prepare p.config.aggregation.reportPath : Action σ Unit) := stops_prepare p _
    exact ((p.build.silent_prepare _).stopping hstops).mono fun r calls hr halt heq =>
      (hr.2 halt heq).elim
  refine .bind hprovision fun _ => .bind hprepare fun _ => .bind ?_ fun _ => ?_
  · exact .issuePassing (fun out => .returns out) (fun _ => trivial) fun _ =>
      not_accepts_build (by decide)
  · exact .issuePassing
      (fun _ => p.build.records_collected.mono fun _ _ ⟨hnil, a, hr, _⟩ => ⟨hnil, a, hr⟩)
      (fun _ => trivial) fun _ => not_accepts_build (by decide)

/-- A run that is let start has ended at its last call, or has come to its tests. -/
theorem calls_onward (hstarts : p.config.trigger.starts event = true) (h : Host σ) (origin : Origin)
    (credential : Credential) (w : World σ) :
    (∃ before call, p.calls h event origin credential w = before ++ [call] ∧
      p.accepts call = false) ∨ p.testing ∈ commands (p.calls h event origin credential w) := by
  have hrest : ∀ profiles, Records
      (do
        let report ← p.aggregation.aggregate h.recorded profiles
        let _ ← Action.upload h.recorded report credential origin)
      (do
        let report ← p.aggregation.aggregate h profiles
        let _ ← Action.upload h report credential origin) fun _ _ => True := fun profiles =>
    (Records.bind (p.aggregation.records_aggregate profiles p.site p.config.toolchain) fun report =>
      Records.bind (Records.upload h report credential origin) fun _ => Records.pure ()).mono
        fun _ _ _ => trivial
  have hwork : Records (p.work h.recorded origin credential) (p.work h origin credential)
      fun _ calls => (∃ before call, calls = before ++ [call] ∧ p.accepts call = false) ∨
        p.testing ∈ commands calls := by
    refine (Records.bind (p.records_profiles.both p.traced_profiles) hrest).mono ?_
    rintro r calls (⟨halt, -, -, hstop⟩ | ⟨profiles, first, rest, ⟨⟨i, -, hkeeps, -⟩, -⟩, -, rfl⟩)
    · obtain ⟨before, call, hcalls, hnot, -⟩ := hstop halt rfl
      exact .inl ⟨before, call, hcalls, hnot⟩
    · right
      rw [commands_append, hkeeps.complete rfl]
      simp [testing]
  obtain ⟨t, hrecorded⟩ := run_world h.recorded p event origin credential w.recording hstarts
  rw [calls, hrecorded]
  exact (hwork.recording w).2.2

/-! ## The protocol -/

/-- Calls that stop at the first that the run may not go on after: their commands are those of the
agenda that the answers make, from the first on, and go on to the tests unless they end before; and a
report is uploaded behind all of them if it was made. -/
structure FailFast (h : Host σ) (p : Pipeline) (origin : Origin) (credential : Credential)
    (w : World σ) (lacking : Toolchain.Changes) (calls : List Call) : Prop where
  told : lacking.ToldBy p.config.toolchain calls
  planned : (commands calls).map Command.sight <+: p.agenda lacking
  once : (commands calls).Nodup
  prompt : ∀ before call after, calls = before ++ call :: after → p.EndsAt call → after = []
  onward : (∃ before call, calls = before ++ [call] ∧ p.EndsAt call) ∨
    ⟨["cargo", "test"] ++ p.config.instrumentation.testArgs, some p.directory,
      some p.config.toolchain.channel⟩ ∈ (commands calls).map Command.sight
  published : uploads calls = [] ∨ ∃ made report answer,
    calls = made ++ [.upload report credential origin answer] ∧ uploads made = [] ∧
    (commands made).map Command.sight = p.agenda lacking ∧ (∀ call ∈ made, ¬ p.EndsAt call) ∧
    (outcome (p.reported h) w).1 = .ok report

/-- The commands issued in a run are those of its calls. They fail fast where the event lets the run
start, and there are none where it does not. -/
theorem run_failFast (h : Host σ) (p : Pipeline) (event : Event) (origin : Origin)
    (credential : Credential) (w : World σ) :
    (p.run h event origin credential w).2.issued =
        w.issued ++ commands (p.calls h event origin credential w) ∧
      (p.config.trigger.starts event = true → ∃ lacking,
        FailFast h p origin credential w lacking (p.calls h event origin credential w)) ∧
      (p.config.trigger.starts event = false → p.calls h event origin credential w = []) := by
  cases hstarts : p.config.trigger.starts event with
  | false =>
    have hcalls := calls_idle hstarts h origin credential w
    exact ⟨by simp [hcalls, run, skipped?, hstarts], by simp, fun _ => hcalls⟩
  | true =>
    obtain ⟨i, hissued, htold, hwork⟩ := calls_cases hstarts h origin credential w
    have honward := calls_onward hstarts h origin credential w
    generalize p.calls h event origin credential w = calls at *
    have hplanned : commands calls <+: p.plan i := by
      rcases hwork with ⟨-, hkeeps⟩ | ⟨made, report, answer, rfl, hkeeps, hreport⟩
      · exact hkeeps.planned
      · exact commands_upload hkeeps ▸ List.prefix_rfl
    refine ⟨hissued, fun _ => ⟨i.changes p.config.toolchain, ?_⟩, by simp⟩
    constructor
    case told => exact toldBy_changes htold hplanned
    case planned =>
      rw [← map_sight_plan]
      exact hplanned.map _
    case once => exact hplanned.sublist.nodup (p.plan_nodup i)
    case prompt =>
      intro before call after heq hends
      have hnot := accepts_eq_false hends
      rcases hwork with ⟨-, hkeeps⟩ | ⟨made, report, answer, rfl, hkeeps, hreport⟩
      · exact hkeeps.last_of_not_accepted heq hnot
      · have hmem : call ∈ made ++ [.upload report credential origin answer] := by simp [heq]
        rw [accepts_upload hkeeps hmem] at hnot
        cases hnot
    case onward =>
      refine honward.imp ?_ fun htest => ?_
      · rintro ⟨before, call, rfl, hnot⟩
        exact ⟨before, call, rfl, endsAt_of_mem (by simp) hplanned hnot⟩
      · exact sight_build p "cargo_test" "test" _ ▸ List.mem_map_of_mem htest
    case published =>
      rcases hwork with ⟨-, hkeeps⟩ | ⟨made, report, answer, rfl, hkeeps, hreport⟩
      · exact .inl hkeeps.uploads
      refine .inr ⟨made, report, answer, rfl, hkeeps.uploads, ?_, fun call hcall hends => ?_, hreport⟩
      · rw [← map_sight_plan, hkeeps.complete rfl]
      · have haccepts := hkeeps.accepted rfl call hcall
        rw [accepts_eq_false hends] at haccepts
        cases haccepts

example : (commands (standard.calls (passing "SF:a\nDA:1,2") ⟨.push, "refs/heads/main"⟩
    (.ofCommit "c" "r") anyCredential project)).map Command.sight =
      standard.agenda ⟨true, ["llvm-tools-preview"], false⟩ := by
  decide +kernel

end Run.Pipeline

end CoverageRun
