/-
Runs do not depend on what earlier runs left. Before the build nothing looks at the tree where the
host provisions without looking at it; then the leftovers are cleared away, and trees that differed
in them are the same. So two such runs have the same result and ask the same of the host, and from
the build on they leave the same behind.
-/
import CoverageRun.Proofs.Run.Leftovers
import CoverageRun.Proofs.Run.Protocol
import CoverageRun.Proofs.Toolchain.Blind

namespace CoverageRun.Run.Pipeline

variable {σ α : Type} {h : Host σ} {p : Pipeline} {event : Event} {origin : Origin}
  {credential : Credential} {w w' : World σ} {t : Files.Tree}

/-! ## Stages in another tree -/

/-- The stage that builds sees of the tree what is left of it when it is cleared. -/
theorem outcome_buildStage_withTree (hclear : p.clearedTree t = p.clearedTree w.tree)
    (f : Unit → Work σ α) (q : Progress) :
    outcome (stage (do
        p.build.prepare p.config.aggregation.reportPath
        let _ ← p.build.build h) >>= f) (w.withTree t, q) =
      outcome (stage (do
        p.build.prepare p.config.aggregation.reportPath
        let _ ← p.build.build h) >>= f) (w, q) := by
  have hact : outcome (do
        p.build.prepare p.config.aggregation.reportPath
        let _ ← p.build.build h : Action σ Unit) (w.withTree t) =
      outcome (do
        p.build.prepare p.config.aggregation.reportPath
        let _ ← p.build.build h : Action σ Unit) w := by
    rw [outcome_buildStage, outcome_buildStage]
    simp only [hclear]
  rw [outcome_bind, outcome_bind, outcome_stage, outcome_stage, hact]

/-- A run that is provisioned goes on alike in both trees. -/
theorem drive_withTree_of_ok
    (hblind : Blind (Toolchain.provision h p.site p.config.toolchain))
    (hclear : p.clearedTree t = p.clearedTree w.tree) {changes : Toolchain.Changes}
    (hprovision : outcome (Toolchain.provision h p.site p.config.toolchain) w = (.ok changes, w'))
    (q : Progress) :
    outcome (p.drive h origin credential) (w.withTree t, q) =
      outcome (p.drive h origin credential) (w, q) := by
  have htree : w'.tree = w.tree := by
    have := hblind.tree_eq w
    rwa [hprovision] at this
  have hother := hblind w t
  rw [hprovision] at hother
  unfold drive
  rw [outcome_bind, outcome_bind, outcome_stage, outcome_stage]
  rw [show (⟨p.directory, p.config.stageTimeout⟩ : Toolchain.Site) = p.site from rfl, hprovision,
    hother]
  exact outcome_buildStage_withTree (by rw [hclear, htree]) _ _

/-- A run that is not provisioned ends there. -/
theorem outcome_drive_of_error {halt : Halt} (q : Progress) :
    outcome (Toolchain.provision h p.site p.config.toolchain) w = (.error halt, w') →
    outcome (p.drive h origin credential) (w, q) =
      (.error halt, w',
        match halt with
        | .failure f => { q with begun := w.issued.length }.fail (linesSince w' w.issued.length) f
        | _ => { q with begun := w.issued.length }) := by
  intro hprovision
  unfold drive
  rw [outcome_bind, outcome_stage]
  rw [show (⟨p.directory, p.config.stageTimeout⟩ : Toolchain.Site) = p.site from rfl, hprovision]
  cases halt <;> rfl

/-- Such a run leaves every tree as it is. -/
theorem drive_withTree_of_error
    (hblind : Blind (Toolchain.provision h p.site p.config.toolchain)) {halt : Halt}
    (hprovision : outcome (Toolchain.provision h p.site p.config.toolchain) w = (.error halt, w'))
    (q : Progress) :
    outcome (p.drive h origin credential) (w.withTree t, q) =
      ((outcome (p.drive h origin credential) (w, q)).1,
        (outcome (p.drive h origin credential) (w, q)).2.1.withTree t,
        (outcome (p.drive h origin credential) (w, q)).2.2) := by
  have hother := hblind w t
  rw [hprovision] at hother
  rw [outcome_drive_of_error q hprovision, outcome_drive_of_error q hother]
  cases halt <;> rfl

/-! ## Runs in another tree -/

/-- The run gets as far as its build. -/
def EntersBuild (h : Host σ) (p : Pipeline) (event : Event) (w : World σ) : Prop :=
  p.config.trigger.starts event = true ∧
    (outcome (Toolchain.provision h p.site p.config.toolchain) w).1.isOk = true

/-- The result of a run whose stages came to this, and the world it leaves. -/
def conclude (p : Pipeline) (event : Event) (origin : Origin) (r : Except Halt Unit) (w : World σ)
    (q : Progress) : Except Halt Result × World σ :=
  match r with
  | .error .overflow => (.error .overflow, w)
  | .error (.unending late) =>
    match p.config.runTimeout with
    | none => (.error (.unending late), w)
    | some seconds =>
      (.ok ((p.cutOff seconds late w q).2.result event origin), (p.cutOff seconds late w q).1)
  | _ => (.ok (q.result event origin), w)

theorem run_eq_conclude (h : Host σ) (p : Pipeline) (origin : Origin) (credential : Credential)
    (w : World σ) (hstarts : p.config.trigger.starts event = true) :
    p.run h event origin credential w =
      p.conclude event origin (outcome (p.drive h origin credential) (w, .started)).1
        (outcome (p.drive h origin credential) (w, .started)).2.1
        (outcome (p.drive h origin credential) (w, .started)).2.2 := by
  rw [run_eq h p event origin credential w hstarts]
  rcases outcome (p.drive h origin credential) (w, .started) with ⟨(f | _ | _) | a, w', q⟩ <;> rfl

/-- What a cut does to the tree, and how it ends the run. -/
theorem cutOff_eq (p : Pipeline) (seconds : UInt64) (late : Option Late) (w : World σ)
    (q : Progress) :
    p.cutOff seconds late w q =
      (w.withTree (if q.phase = .aggregating then
          Aggregation.discardAmid w.tree p.aggregation.reportPath late
        else w.tree),
        q.fail (linesSince w q.begun) (outOfTime seconds)) := by
  unfold cutOff
  by_cases hphase : q.phase = .aggregating
  · simp only [if_pos hphase]
    rfl
  · simp only [if_neg hphase]

/-- The result does not depend on the tree that the stages left. -/
theorem conclude_withTree (p : Pipeline) (event : Event) (origin : Origin) (r : Except Halt Unit)
    (w : World σ) (t : Files.Tree) (q : Progress) :
    (p.conclude event origin r (w.withTree t) q).1 = (p.conclude event origin r w q).1 ∧
      ∃ t', (p.conclude event origin r (w.withTree t) q).2 =
        (p.conclude event origin r w q).2.withTree t' := by
  cases r with
  | ok => exact ⟨rfl, t, rfl⟩
  | error halt =>
    cases halt with
    | failure | overflow => exact ⟨rfl, t, rfl⟩
    | unending =>
      unfold conclude
      cases p.config.runTimeout with
      | none => exact ⟨rfl, t, rfl⟩
      | some seconds =>
        simp only [cutOff_eq]
        exact ⟨rfl, _, rfl⟩

/-- A run with a record of another stage than provisioning has got as far as its build. -/
theorem entersBuild_of_record {r : Result} {record : StageRecord}
    (hr : (p.run h event origin credential w).1 = .ok r) (hrecord : record ∈ r.stages)
    (hstage : record.stage ≠ .provision) : p.EntersBuild h event w := by
  cases hstarts : p.config.trigger.starts event with
  | false =>
    rw [run_idle h p event origin credential w hstarts] at hr
    cases hr
    cases hrecord
  | true =>
    refine ⟨hstarts, ?_⟩
    rcases ho : outcome (Toolchain.provision h p.site p.config.toolchain) w with ⟨halt | changes, w'⟩
    case ok => rfl
    rw [run_eq h p event origin credential w hstarts, outcome_drive_of_error _ ho] at hr
    refine absurd ?_ hstage
    cases halt with
    | failure f =>
      cases hr
      cases List.mem_singleton.1 hrecord
      rfl
    | overflow => cases hr
    | unending =>
      cases htime : p.config.runTimeout with
      | none =>
        simp only [htime] at hr
        cases hr
      | some seconds =>
        simp only [htime, cutOff_eq] at hr
        cases hr
        cases List.mem_singleton.1 hrecord
        rfl

/-- Runs in trees that are the same once cleared come to the same result and leave worlds that differ
at most in their trees; and the trees are the same from the build on. -/
theorem run_withTree (event : Event) (origin : Origin) (credential : Credential)
    (hblind : ∀ i, ∀ c ∈ Toolchain.plan p.site p.config.toolchain i, h.BlindTo c)
    (hclear : p.clearedTree t = p.clearedTree w.tree) :
    (p.run h event origin credential (w.withTree t)).1 = (p.run h event origin credential w).1 ∧
      (∃ t', (p.run h event origin credential (w.withTree t)).2 =
        (p.run h event origin credential w).2.withTree t') ∧
      (p.EntersBuild h event w → (p.run h event origin credential (w.withTree t)).2 =
        (p.run h event origin credential w).2) := by
  have hprovision : Blind (Toolchain.provision h p.site p.config.toolchain) :=
    Toolchain.blind_provision hblind
  cases hstarts : p.config.trigger.starts event with
  | false =>
    rw [run_idle h p event origin credential _ hstarts, run_idle h p event origin credential w hstarts]
    exact ⟨rfl, ⟨t, rfl⟩, fun henters => by rw [henters.1] at hstarts; cases hstarts⟩
  | true =>
    rw [run_eq_conclude h p origin credential _ hstarts, run_eq_conclude h p origin credential w hstarts]
    rcases ho : outcome (Toolchain.provision h p.site p.config.toolchain) w with ⟨halt | changes, w'⟩
    · have hnot : ¬ p.EntersBuild h event w := fun henters => by
        have := henters.2
        rw [ho] at this
        cases this
      rw [drive_withTree_of_error hprovision ho]
      obtain ⟨hresult, hworld⟩ := conclude_withTree p event origin _ _ t _
      exact ⟨hresult, hworld, fun henters => absurd henters hnot⟩
    · rw [drive_withTree_of_ok hprovision hclear ho]
      exact ⟨rfl, ⟨_, rfl⟩, fun _ => rfl⟩

/-- Runs in two trees that are the same but for what an earlier run left, none of it on the way to an
output, have the same result and ask the same of the host, and they leave the same world if they get
as far as the build. -/
theorem run_forgets (h : Host σ) (p : Pipeline) (event : Event) (origin : Origin)
    (credential : Credential) (w : World σ) (t : Files.Tree)
    (hblind : ∀ i, ∀ c ∈ Toolchain.plan p.site p.config.toolchain i, h.BlindTo c)
    (hsame : p.SameBut w.tree t) (hone : p.Untangled w.tree) (hother : p.Untangled t) :
    (p.run h event origin credential (w.withTree t)).1 = (p.run h event origin credential w).1 ∧
      p.calls h event origin credential (w.withTree t) = p.calls h event origin credential w ∧
      (p.EntersBuild h event w → (p.run h event origin credential (w.withTree t)).2 =
        (p.run h event origin credential w).2) := by
  have hclear : p.clearedTree t = p.clearedTree w.tree := hsame.clearedTree hone hother
  obtain ⟨hresult, -, hworld⟩ := run_withTree event origin credential hblind hclear
  have hrecords : ∀ i, ∀ c ∈ Toolchain.plan p.site p.config.toolchain i, h.recorded.BlindTo c :=
    fun i c hc => (hblind i c hc).recorded
  obtain ⟨-, ⟨t', hrecorded⟩, -⟩ :=
    run_withTree (w := w.recording) event origin credential hrecords hclear
  exact ⟨hresult, congrArg (·.host.2) hrecorded, hworld⟩

/-! ## A project that was run before -/

theorem blindTo_passing (text : String) {c : Command} (htest : c.name ≠ "cargo_test")
    (haggregate : c.name ≠ "aggregate") : (passing text).BlindTo c := by
  intro t t' s
  simp [passing, htest, haggregate]

/-- A project where an earlier run left a profile, a report that was being staged, and raw output. -/
def littered : Files.Tree :=
  ((project.tree.put ["old.profraw"] (.file [] false)).put ["lcov.info.raw"] (.text "stale")).put
    ["lcov.info.tmp"] (.link "target")

theorem run_forgets_littered :
    standard.SameBut project.tree littered ∧ littered ≠ project.tree ∧
    standard.Untangled project.tree ∧ standard.Untangled littered ∧
    (standard.run (passing "SF:a\nDA:1,2") ⟨.push, "refs/heads/main"⟩ (.ofCommit "c" "r")
        anyCredential (project.withTree littered)).2 =
      (standard.run (passing "SF:a\nDA:1,2") ⟨.push, "refs/heads/main"⟩ (.ofCommit "c" "r")
        anyCredential project).2 := by
  have hsame : standard.SameBut project.tree littered := by decide +kernel
  have hone : standard.Untangled project.tree := by decide +kernel
  have hother : standard.Untangled littered := by decide +kernel
  have henters : standard.EntersBuild (passing "SF:a\nDA:1,2") ⟨.push, "refs/heads/main"⟩ project :=
    ⟨by decide +kernel, by decide +kernel⟩
  refine ⟨hsame, by decide +kernel, hone, hother,
    (run_forgets _ standard _ _ _ project littered (fun i c hc => ?_) hsame hone hother).2.2 henters⟩
  obtain ⟨-, htest, haggregate⟩ := name_ne_of_mem_plan hc
  exact blindTo_passing _ htest haggregate

/-! ## A report path with a link on its way -/

/-- A pipeline whose report path leads through the place where the report is staged. -/
def roundabout : Pipeline :=
  ⟨{ Config.standard with
      aggregation := { Aggregation.Settings.standard with reportPath := ⟨"r.tmp/../r"⟩ } },
    ⟨"."⟩, by decide +kernel⟩

/-- A host whose commands pass: the tests leave a profile in a directory of their own, the coverage
tool leaves nothing. -/
def toolless : Host Unit where
  run c t _ :=
    (.completed ⟨c.name, 0, "", "", true⟩,
      if c.name = "cargo_test" then
        (t.put ["r.tmp"] .directory).put ["r.tmp", "a.profraw"] (.file [] false)
      else t, ())
  publish _ _ _ _ := (.failed (.publish "no service"), ())

/-- A project with a directory, and raw output that an earlier run left. -/
def leftRaw : World Unit :=
  project.withTree ((project.tree.put ["e"] .directory).put ["r.raw"] (.text "stale"))

/-- Two trees that differ in a link at the staged path only. Where it stands the raw output is
cleared away; where it does not the way there leads nowhere before the tests, and the coverage tool
seems to have written what was left. -/
theorem stale_text_read :
    (∀ i, ∀ c ∈ Toolchain.plan roundabout.site roundabout.config.toolchain i, toolless.BlindTo c) ∧
    roundabout.SameBut leftRaw.tree (leftRaw.tree.put ["r.tmp"] (.link "e")) ∧
    (roundabout.run toolless ⟨.push, "refs/heads/main"⟩ (.ofCommit "c" "r") anyCredential
        leftRaw).1.toOption.bind (·.failure) =
      some ⟨some .aggregate, "aggregation failed: malformed LCOV at line 1: expected <TAG>:<value>",
        40⟩ ∧
    (roundabout.run toolless ⟨.push, "refs/heads/main"⟩ (.ofCommit "c" "r") anyCredential
        (leftRaw.withTree (leftRaw.tree.put ["r.tmp"] (.link "e")))).1.toOption.bind (·.failure) =
      some ⟨some .aggregate, "aggregation failed: grcov exited with code 0: " ++
        "no report written to ./r.tmp/../r.raw", 40⟩ := by
  refine ⟨fun i c hc t t' s => ?_, by decide +kernel, by decide +kernel, by decide +kernel⟩
  simp [toolless, (name_ne_of_mem_plan hc).2.1]

end CoverageRun.Run.Pipeline
