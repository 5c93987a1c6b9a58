/-
What provisioning changes. It installs what the listings do not show, reports exactly that, and
stops only for its last call. The listings are any texts: what they show is said of their lines.
-/
import CoverageRun.Proofs.Host.Causes
import CoverageRun.Proofs.Toolchain.Idempotence

namespace CoverageRun.Toolchain

variable {σ : Type} {h : Host σ} {s : Site} {spec : Needs}

/-! ## Why provisioning stops -/

def IsProvisioning (f : Failure) : Prop := ∃ reason, f = .provisioning reason

/-- A command other than the question for the tool's version must pass. -/
theorem not_accepts {c : Command} (hc : c.name ≠ "tool_version") {answer : Answer Completion}
    (hp : answer.passes = false) : accepts s spec (.command c answer) = false := by
  have hne : c ≠ s.command (askVersion spec.tool) := fun heq => hc (heq ▸ rfl)
  simp [accepts, hp, hne]

theorem traced_query {c : String × List String} (hc : c.1 ≠ "tool_version") :
    Traced h (accepts s spec) IsProvisioning (query h.recorded s c) (query h s c) :=
  .issuePassing (fun out => .returns out.stdout) (fun _ => ⟨_, rfl⟩) fun _ => not_accepts hc

theorem traced_install {c : String × List String} (hc : c.1 ≠ "tool_version") (complaint : String) :
    Traced h (accepts s spec) IsProvisioning (install h.recorded s c complaint)
      (install h s c complaint) :=
  .issuePassing (fun _ => .returns ()) (fun _ => ⟨_, rfl⟩) fun _ => not_accepts hc

/-- The question for the version stops the work only if it has no answer, or the host fails otherwise
than by not starting the tool. -/
theorem traced_hasTool :
    Traced h (accepts s spec) IsProvisioning (hasTool h.recorded s spec.tool) (hasTool h s spec.tool) := by
  unfold hasTool
  refine (Records.tryCatch (U := fun halt r calls => calls = [] ∧ ∀ halt', r = .error halt' →
      halt' = halt ∧ ∀ reason, halt ≠ .failure (.io reason))
    (Records.bind (Records.issue_answered h _) fun out => Records.pure out.passed) ?_).mono ?_
  · intro halt
    split
    · exact (Records.pure false).mono fun r calls hr => ⟨hr.1, by rintro halt' rfl; cases hr.2⟩
    · rename_i hother
      refine (Records.throw _).mono fun r calls hr => ⟨hr.1, ?_⟩
      intro halt' heq
      cases hr.2.symm.trans heq
      exact ⟨rfl, hother⟩
  rintro r calls (⟨passed, rfl, -⟩ | ⟨halt, first, rest, hstop, ⟨rfl, hr⟩, rfl⟩) halt' heq
  · cases heq
  obtain ⟨rfl, hother⟩ := hr halt' heq
  rcases hstop with ⟨halt, hhalt, answer, rfl, hanswer, t, x, hrun⟩ | ⟨out, _, _, -, ⟨-, hr'⟩, -⟩
  case inr => cases hr'
  cases hhalt
  cases answer with
  | completed out => cases hanswer
  | failed f =>
    cases hanswer
    -- a tool that could not be started would have been taken for missing
    have hsettles : (Answer.failed f : Answer Completion).settles = false := by
      cases f with
      | io reason => exact absurd rfl (hother reason)
      | _ => rfl
    exact ⟨[], _, rfl, by simp [accepts, Answer.passes, hsettles], .failed ⟨t, x, hrun⟩⟩
  | unending =>
    cases hanswer
    exact ⟨[], _, rfl, by simp [accepts, Answer.passes, Answer.settles], .unending⟩

theorem traced_addMissing {channel : String} {entries : List String} : ∀ cs,
    Traced h (accepts s spec) IsProvisioning (addMissing h.recorded s channel entries cs)
      (addMissing h s channel entries cs)
  | [] => .pure []
  | c :: cs => by
    unfold addMissing
    split
    · exact traced_addMissing cs
    · exact .bind (traced_install (by simp [addComponent]) _) fun _ =>
        .bind (traced_addMissing cs) fun _ => .pure _

/-- Something is installed unless it is there, before work that is traced. -/
theorem traced_unless {α : Type} {work' : Action (σ × List Call) α} {work : Action σ α}
    (there : Bool) {c : String × List String} (hc : c.1 ≠ "tool_version") (complaint : String)
    (hwork : Traced h (accepts s spec) IsProvisioning work' work) :
    Traced h (accepts s spec) IsProvisioning
      (do
        if !there then install h.recorded s c complaint
        work')
      (do
        if !there then install h s c complaint
        work) := by
  cases there with
  | true => exact hwork
  | false => exact .bind (traced_install hc complaint) fun _ => hwork

/-- Provisioning for needs that are valid stops for its last call, if it stops. -/
theorem traced_provision (hvalid : spec.validate = .ok ()) :
    Traced h (accepts s spec) IsProvisioning (provision h.recorded s spec) (provision h s spec) := by
  rw [provision_eq, provision_eq, hvalid]
  refine .bind (.pure ()) fun _ => .bind (traced_query (by simp [listChannels])) fun channels => ?_
  refine traced_unless _ (by simp [installChannel]) _ ?_
  refine .bind (traced_query (by simp [listComponents])) fun listing =>
    .bind (traced_addMissing _) fun added => .bind traced_hasTool fun present => ?_
  exact traced_unless _ (by simp [installTool]) _ (.pure _)

/-! ## What the plan installs -/

/-- A command that begins with these words was issued. -/
def Ran (calls : List Call) (words : List String) : Prop :=
  ∃ c ∈ commands calls, c.startsWith words = true

def installations : List (List String) :=
  [["rustup", "toolchain", "install"], ["rustup", "component", "add"], ["cargo", "install"]]

@[simp]
theorem startsWith_command (s : Site) (c : String × List String) (words : List String) :
    (s.command c).startsWith words = words.isPrefixOf c.2 := rfl

theorem exists_installs_channel_iff (s : Site) (spec : Needs) (i : Inventory) :
    (∃ c ∈ plan s spec i, c.startsWith ["rustup", "toolchain", "install"] = true) ↔
      lists i.channels spec.channel = false := by
  cases hlisted : lists i.channels spec.channel <;> cases htool : i.tool <;>
    simp [plan, planFor, hlisted, htool, or_and_right, exists_or, listChannels, installChannel, listComponents,
      addComponent, askVersion, installTool]

theorem exists_installs_tool_iff (s : Site) (spec : Needs) (i : Inventory) :
    (∃ c ∈ plan s spec i, c.startsWith ["cargo", "install"] = true) ↔ i.tool = false := by
  cases hlisted : lists i.channels spec.channel <;> cases htool : i.tool <;>
    simp [plan, planFor, hlisted, htool, or_and_right, exists_or, listChannels, installChannel, listComponents,
      addComponent, askVersion, installTool]

theorem filter_adds_component (s : Site) (spec : Needs) (i : Inventory) :
    ((plan s spec i).filter fun c => c.startsWith ["rustup", "component", "add"]) =
      (missing spec i.components).map fun c => s.command (addComponent spec.channel c) := by
  cases hlisted : lists i.channels spec.channel <;> cases htool : i.tool <;>
    simp [plan, planFor, hlisted, htool, List.filter_map, Function.comp_def, listChannels, installChannel,
      listComponents, addComponent, askVersion, installTool]

/-! ## What answers are accepted -/

theorem passes_of_accepts {c : String × List String} (hc : c.1 ≠ "tool_version")
    {answer : Answer Completion} (ha : accepts s spec (.command (s.command c) answer) = true) :
    ∃ out, answer = .completed out ∧ out.passed = true := by
  cases answer with
  | completed out =>
    cases hp : out.passed with
    | true => exact ⟨out, rfl, hp⟩
    | false =>
      have hnot : (Answer.completed out).passes = false := hp
      rw [not_accepts hc hnot] at ha
      cases ha
  | failed f => rw [not_accepts hc rfl] at ha; cases ha
  | unending => rw [not_accepts hc rfl] at ha; cases ha

/-- Where the work may go on, a tool that does not tell its version could not be started or has run
and not passed. -/
theorem not_passes_iff_of_accepts {answer : Answer Completion}
    (ha : accepts s spec (.command (s.command (askVersion spec.tool)) answer) = true) :
    answer.passes = false ↔
      (∃ reason, answer = .failed (.io reason)) ∨ ∃ out, answer = .completed out ∧ out.passed = false := by
  cases answer with
  | completed out => simp [Answer.passes]
  | failed f => cases f <;> simp [accepts, Answer.passes, Answer.settles] at ha ⊢
  | unending => simp [accepts, Answer.passes, Answer.settles] at ha

/-! ## Reports -/

/-- The calls of provisioning, in order. -/
def calls (h : Host σ) (s : Site) (spec : Needs) (w : World σ) : List Call :=
  (outcome (provision h.recorded s spec) w.recording).2.host.2

/-- A report tells which installations were among the calls; they are of what the answers show to be
missing. -/
structure Changes.Tells (changes : Changes) (s : Site) (spec : Needs) (calls : List Call) : Prop where
  toolchain_iff : changes.toolchain = true ↔ Ran calls ["rustup", "toolchain", "install"]
  channels : ∃ out, .command (s.command listChannels) (.completed out) ∈ calls ∧
    (changes.toolchain = true ↔ ¬ ShowsChannel out.stdout spec.channel)
  added : ((commands calls).filter fun c => c.startsWith ["rustup", "component", "add"]) =
    changes.components.map fun c => s.command (addComponent spec.channel c)
  ascending : changes.components.Pairwise fun a b => compare a b = .lt
  components : ∃ out, .command (s.command (listComponents spec.channel)) (.completed out) ∈ calls ∧
    ∀ c, c ∈ changes.components ↔ c ∈ spec.components.keys ∧ ¬ ShowsComponent out.stdout c
  tool_iff : changes.tool = true ↔ Ran calls ["cargo", "install"]
  version : ∃ answer, .command (s.command (askVersion spec.tool)) answer ∈ calls ∧
    (changes.tool = true ↔ (∃ reason, answer = .failed (.io reason)) ∨
      ∃ out, answer = .completed out ∧ out.passed = false)
  any_iff : changes.any = true ↔ ∃ words ∈ installations, Ran calls words
  once : (commands calls).Nodup

/-- Calls that have gone through the plan of an inventory are told by its changes. -/
theorem tells_changes {i : Inventory} {calls : List Call} (htold : i.ToldBy s spec calls)
    (hkeeps : Keeps (accepts s spec) (plan s spec i) true calls) :
    (i.changes spec).Tells s spec calls := by
  have hplan : commands calls = plan s spec i := hkeeps.complete rfl
  have hasked : ∀ c ∈ plan s spec i, ∃ answer, .command c answer ∈ calls ∧
      accepts s spec (.command c answer) = true := by
    intro c hc
    obtain ⟨answer, hanswer⟩ := exists_of_mem_commands (hplan ▸ hc)
    exact ⟨answer, hanswer, hkeeps.accepted rfl _ hanswer⟩
  have htoolchain : (i.changes spec).toolchain = true ↔ Ran calls ["rustup", "toolchain", "install"] := by
    rw [Ran, hplan, exists_installs_channel_iff]
    simp [Inventory.changes]
  have hadded : ((commands calls).filter fun c => c.startsWith ["rustup", "component", "add"]) =
      (i.changes spec).components.map fun c => s.command (addComponent spec.channel c) := by
    rw [hplan, filter_adds_component]
    rfl
  have htool : (i.changes spec).tool = true ↔ Ran calls ["cargo", "install"] := by
    rw [Ran, hplan, exists_installs_tool_iff]
    simp [Inventory.changes]
  constructor
  case toolchain_iff => exact htoolchain
  case added => exact hadded
  case tool_iff => exact htool
  case ascending => exact missing_ascending spec i.components
  case once => exact hplan ▸ plan_nodup s spec i
  case channels =>
    obtain ⟨answer, hanswer, haccepts⟩ := hasked (s.command listChannels) (by simp [plan])
    obtain ⟨out, rfl, -⟩ := passes_of_accepts (by simp [listChannels]) haccepts
    have hout : out.stdout = i.channels := htold.channels _ hanswer
    refine ⟨out, hanswer, ?_⟩
    rw [hout, ← lists_iff]
    simp [Inventory.changes]
  case components =>
    obtain ⟨answer, hanswer, haccepts⟩ := hasked (s.command (listComponents spec.channel))
      (by simp [plan, planFor])
    obtain ⟨out, rfl, -⟩ := passes_of_accepts (by simp [listComponents]) haccepts
    have hout : out.stdout = i.components := htold.components _ hanswer
    refine ⟨out, hanswer, fun c => ?_⟩
    rw [hout, ← listsComponent_iff]
    simp [Inventory.changes, missing]
  case version =>
    -- this question need not pass, so the inventory says what its answer was taken for
    obtain ⟨answer, hanswer, haccepts⟩ := hasked (s.command (askVersion spec.tool))
      (by simp [plan, planFor])
    refine ⟨answer, hanswer, ?_⟩
    rw [← not_passes_iff_of_accepts haccepts, htold.tool answer hanswer]
    simp [Inventory.changes]
  case any_iff =>
    have hcomponents : (i.changes spec).components ≠ [] ↔ Ran calls ["rustup", "component", "add"] := by
      have hran : Ran calls ["rustup", "component", "add"] ↔
          ((commands calls).filter fun c => c.startsWith ["rustup", "component", "add"]) ≠ [] := by
        simp [Ran, List.filter_eq_nil_iff]
      rw [hran, hadded, not_iff_not, List.map_eq_nil_iff]
    simp only [Changes.any, installations, Bool.or_eq_true, Bool.not_eq_true', List.isEmpty_eq_false_iff,
      htoolchain, hcomponents, htool, List.exists_mem_cons_iff, List.not_mem_nil, false_and, exists_false,
      or_false, or_assoc]

/-- Provisioning for valid needs installs exactly what is missing and reports exactly that, whatever
the host does. Where it stops, it stops for the last call; and a command that has run and not passed,
other than the question for the tool's version, is a failure of provisioning. -/
theorem provision_installs_missing (h : Host σ) (s : Site) (spec : Needs) (w : World σ)
    (hvalid : spec.validate = .ok ()) :
    (outcome (provision h s spec) w).2.issued = w.issued ++ commands (calls h s spec w) ∧
    (∀ changes, (outcome (provision h s spec) w).1 = .ok changes →
      changes.Tells s spec (calls h s spec w)) ∧
    (∀ halt, (outcome (provision h s spec) w).1 = .error halt → ∃ before call,
      calls h s spec w = before ++ [call] ∧ accepts s spec call = false ∧
        call.StopsFor h IsProvisioning halt) ∧
    ∀ c out, .command c (.completed out) ∈ calls h s spec w → out.passed = false →
      c ≠ s.command (askVersion spec.tool) →
      ∃ reason, (outcome (provision h s spec) w).1 = .error (.failure (.provisioning reason)) := by
  obtain ⟨hsame, hissued, ⟨i, htold, hkeeps, hchanges⟩, hstops⟩ :=
    ((records_provision s spec).both (traced_provision (h := h) (s := s) hvalid)).recording w
  rw [hsame]
  refine ⟨hissued, ?_, hstops, ?_⟩
  · intro changes hok
    simp only at hok
    rw [hok] at hkeeps
    rw [hchanges changes hok]
    exact tells_changes htold hkeeps
  · intro c out hcall hp hc
    have hnot : accepts s spec (.command c (.completed out)) = false := by
      simp [accepts, Answer.passes, hp, hc]
    obtain ⟨f, hf, reason, rfl⟩ := hstops.exists_failure hkeeps hcall hnot
    exact ⟨reason, hf⟩

/-- The calls that the standard needs are provided with. -/
def standardCalls : List Call :=
  calls (stockHost "x86_64-unknown-linux-gnu" ["miri"]) ⟨⟨"/work"⟩, 60⟩ .standard ⟨.empty [], datedStock, []⟩

theorem provision_installs_missing_dated :
    Needs.standard.validate = .ok () ∧
    (outcome standardProvision ⟨.empty [], datedStock, []⟩).1 = .ok ⟨true, ["llvm-tools-preview"], true⟩ ∧
    Changes.Tells ⟨true, ["llvm-tools-preview"], true⟩ ⟨⟨"/work"⟩, 60⟩ .standard standardCalls := by
  have hvalid : Needs.standard.validate = .ok () := by decide +kernel
  have hfirst : (outcome standardProvision ⟨.empty [], datedStock, []⟩).1.toOption =
      some ⟨true, ["llvm-tools-preview"], true⟩ := by decide +kernel
  have hok : (outcome standardProvision ⟨.empty [], datedStock, []⟩).1 =
      .ok ⟨true, ["llvm-tools-preview"], true⟩ := by
    cases ho : (outcome standardProvision ⟨.empty [], datedStock, []⟩).1 with
    | error halt => rw [ho] at hfirst; cases hfirst
    | ok changes => rw [ho] at hfirst; cases hfirst; rfl
  exact ⟨hvalid, hok, (provision_installs_missing _ _ _ _ hvalid).2.1 _ hok⟩

end CoverageRun.Toolchain
