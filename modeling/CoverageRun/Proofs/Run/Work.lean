/-
What a run does to the world, apart from the account it keeps: the work of its stages, one after
another. The account neither adds to that work nor changes what it comes to. A run stops for
failures, for a host that does not answer, and for counts that overflow in the tool's output.
-/
import CoverageRun.Proofs.Aggregation.Steps
import CoverageRun.Run.Pipeline

namespace CoverageRun

variable {σ α β : Type} {h : Host σ} {allowed : Halt → Prop}

/-! ## What stages stop for -/

namespace Toolchain

theorem stops_query (hh : Admits h allowed) (s : Site) (c : String × List String) :
    Stops allowed (query h s c) :=
  .bind (.issue hh _) fun out => by
    split
    · exact .pure _
    · exact .fail hh rfl

theorem stops_install (hh : Admits h allowed) (s : Site) (c : String × List String)
    (complaint : String) : Stops allowed (install h s c complaint) :=
  .bind (.issue hh _) fun out => by
    split
    · exact .pure _
    · exact .fail hh rfl

theorem stops_hasTool (hh : Admits h allowed) (s : Site) (tool : String) :
    Stops allowed (hasTool h s tool) := by
  unfold hasTool
  refine Stops.tryCatch ?_ ?_
  · exact .bind (.issue hh _) fun out => .pure out.passed
  intro halt hhalt
  split
  · exact .pure _
  · exact .throw hhalt

theorem stops_addMissing (hh : Admits h allowed) (s : Site) (channel : String)
    (entries : List String) : ∀ cs, Stops allowed (addMissing h s channel entries cs)
  | [] => .pure _
  | c :: cs => by
    unfold addMissing
    split
    · exact stops_addMissing hh s channel entries cs
    · exact .bind (stops_install hh s _ _) fun _ =>
        .bind (stops_addMissing hh s channel entries cs) fun _ => .pure _

theorem stops_provision (hh : Admits h allowed) (s : Site) {spec : Needs}
    (hspec : ∀ f, spec.validate = .error f → allowed (.failure (.config f.message))) :
    Stops allowed (provision h s spec) := by
  have hrest : ∀ listed, Stops allowed (do
      let entries := components (← query h s (listComponents spec.channel))
      let added ← addMissing h s spec.channel entries spec.components.keys
      let present ← hasTool h s spec.tool
      if !present then install h s (installTool spec.tool) s!"could not install {spec.tool}"
      return (⟨!listed, added, !present⟩ : Changes)) := by
    intro listed
    refine .bind (stops_query hh s _) fun _ => .bind (stops_addMissing hh s _ _ _) fun _ =>
      .bind (stops_hasTool hh s _) fun present => ?_
    split
    · exact .bind (stops_install hh s _ _) fun _ => .pure _
    · exact .pure _
  refine .bind (.ofExcept hspec) fun _ => .bind (stops_query hh s _) fun text => ?_
  simp only
  split
  · exact .bind (stops_install hh s _ _) fun _ => hrest _
  · exact hrest _

end Toolchain

namespace Instrumentation.Build

theorem stops_prepare {b : Build}
    (hb : ∀ f, b.settings.validate = .error f → allowed (.failure (.config f.message)))
    (report : Path) : Stops allowed (b.prepare report : Action σ Unit) :=
  .bind (.ofExcept hb) fun _ => .bind .tree fun _ => .setTree _

theorem stops_build (hh : Admits h allowed) (b : Build) : Stops allowed (b.build h) :=
  .bind (.issue hh _) fun out => by
    split
    · exact .pure _
    · exact .fail hh rfl

theorem stops_test (hh : Admits h allowed) (b : Build) : Stops allowed (b.test h) :=
  .bind (.issue hh _) fun out => by
    split
    · exact .bind .tree fun _ => .pure _
    · exact .fail hh rfl

end Instrumentation.Build

namespace Aggregation.Task

/-- The file operations that an aggregation waits for. -/
inductive Waits (a : Task) : Files.Operation → Prop
  | read : Waits a (.read (rawPath a.reportPath))
  | write (report : Coverage.Report) : Waits a (.write (stagedPath a.reportPath) report.octets)
  | rename : Waits a (.rename (stagedPath a.reportPath) a.reportPath)

/-- The reasons for which a report is not made once the checks are passed, where the tool itself does
not stop the work: the tool or its output is at fault, or the files are, or time is up while a file
operation is waited for. -/
structure Spoils (h : Host σ) (a : Task) (allowed : Halt → Prop) : Prop where
  toolFailed : ∀ tool exitCode text, allowed (.failure (.aggregation (.toolFailed tool exitCode text)))
  malformed : ∀ line text, allowed (.failure (.aggregation (.malformed line text)))
  files : ∀ fault, allowed (.failure (.ofFiles fault))
  overflow : allowed .overflow
  late : ∀ op, a.Waits op → ∀ t s landing, h.overtakes op t s = some landing →
    allowed (.unending (some ⟨op, landing⟩))

theorem spoils_of_admits (hh : Admits h allowed) (hoverflow : allowed .overflow) (a : Task) :
    Spoils h a allowed :=
  ⟨fun _ _ _ => hh.own _ rfl, fun _ _ => hh.own _ rfl, fun _ => hh.own _ rfl, hoverflow,
    fun _ _ _ _ _ hlate => hh.late hlate⟩

variable {a : Task}

theorem Spoils.perform (hs : Spoils h a allowed) {op : Files.Operation} (hop : a.Waits op) :
    Stops allowed (Action.perform h op) :=
  .bind (.await_of_overtakes (hs.late op hop)) fun _ => .changeFiles hs.files op.apply

theorem stops_readRaw (hs : Spoils h a allowed) (exitCode : Int) :
    Stops allowed (a.readRaw h exitCode) :=
  .bind (.await_of_overtakes (hs.late _ .read)) fun _ => .bind .tree fun t => by
    split
    · exact .pure _
    · exact .throw (hs.toolFailed _ _ _)
    · exact .throw (hs.files _)

theorem stops_store (hs : Spoils h a allowed) (exclusions : Coverage.Exclusions) (text : String) :
    Stops allowed (a.store h exclusions text) := by
  refine .bind ?_ fun _ => .bind (hs.perform (.write _)) fun _ => .bind (hs.perform .rename) fun _ =>
    .pure _
  unfold parse
  split
  · exact .pure _
  · exact .throw (hs.malformed _ _)
  · exact .throw hs.overflow

theorem stops_collect (hs : Spoils h a allowed) (profiles : Profile.Collection)
    (exclusions : Coverage.Exclusions)
    (hissue : Stops allowed (Action.issue h (a.command profiles.root))) :
    Stops allowed (a.collect h profiles exclusions) := by
  refine .bind hissue fun out => ?_
  simp only
  split
  · exact .bind (.throw (hs.toolFailed _ _ _)) fun _ =>
      .bind (stops_readRaw hs _) (stops_store hs exclusions)
  · exact .bind (stops_readRaw hs _) (stops_store hs exclusions)

theorem stops_collectOrDiscard (hs : Spoils h a allowed) (profiles : Profile.Collection)
    (exclusions : Coverage.Exclusions)
    (hissue : Stops allowed (Action.issue h (a.command profiles.root))) :
    Stops allowed (a.collectOrDiscard h profiles exclusions) := by
  intro w halt w' ho
  have hcollect := stops_collect hs profiles exclusions hissue w
  rw [outcome_collectOrDiscard] at ho
  rcases hc : outcome (a.collect h profiles exclusions) w with ⟨(f | _ | _) | report, w₁⟩ <;>
    rw [hc] at ho <;> cases ho <;> exact hcollect _ _ hc

theorem stops_aggregate (hh : Admits h allowed) (hoverflow : allowed .overflow) (a : Task)
    (profiles : Profile.Collection)
    (hready : ∀ t f, a.ready? profiles t h.refuses = .error f → allowed (.failure f)) :
    Stops allowed (a.aggregate h profiles) := by
  intro w halt w' ho
  rw [outcome_aggregate] at ho
  split at ho
  · rename_i exclusions _
    exact stops_collectOrDiscard (spoils_of_admits hh hoverflow a) profiles exclusions (.issue hh _) w
      halt w' ho
  · rename_i f hf
    cases ho
    exact hready w.tree f hf

end Aggregation.Task

/-! ## Work without its account -/

namespace Run

/-- The work of a stage is done, and how it ended is written down. -/
theorem outcome_stage (act : Action σ α) (w : World σ) (p : Progress) :
    outcome (stage act) (w, p) =
      match outcome act w with
      | (.ok a, w') =>
        (.ok a, w', { p with begun := w.issued.length }.pass (linesSince w' w.issued.length))
      | (.error (.failure f), w') =>
        (.error (.failure f), w',
          { p with begun := w.issued.length }.fail (linesSince w' w.issued.length) f)
      | (.error halt, w') => (.error halt, w', { p with begun := w.issued.length }) := by
  unfold stage
  rw [outcome_bind, outcome_get]
  simp only
  rw [show StateT.run (ExceptT.run act) w = outcome act w from rfl]
  rcases outcome act w with ⟨(f | _ | _) | a, w'⟩ <;> rfl

/-- Work on a run that comes to what other work comes to, in the same world. -/
def Follows (work : Work σ α) (act : Action σ α) : Prop :=
  ∀ w p, (outcome work (w, p)).1 = (outcome act w).1 ∧ (outcome work (w, p)).2.1 = (outcome act w).2

namespace Follows

theorem stage (act : Action σ α) : Follows (stage act) act := by
  intro w p
  rw [outcome_stage]
  rcases outcome act w with ⟨(f | _ | _) | a, w'⟩ <;> exact ⟨rfl, rfl⟩

theorem bind {work : Work σ α} {act : Action σ α} {f : α → Work σ β} {g : α → Action σ β}
    (hw : Follows work act) (hf : ∀ a, Follows (f a) (g a)) : Follows (work >>= f) (act >>= g) := by
  intro w p
  obtain ⟨hvalue, hworld⟩ := hw w p
  rw [outcome_bind, outcome_bind]
  rcases ho : outcome work (w, p) with ⟨halt | a, w', p'⟩ <;> rw [ho] at hvalue hworld <;>
    rcases hact : outcome act w with ⟨halt' | a', w''⟩ <;> rw [hact] at hvalue hworld
  · cases hvalue; exact ⟨rfl, hworld⟩
  · cases hvalue
  · cases hvalue
  · cases hvalue
    cases hworld
    exact hf a w' p'

/-- Changes of the account leave the world alone. -/
theorem account (f : Progress → Progress) {work : Work σ α} {act : Action σ α}
    (h : Follows work act) :
    Follows (do modify fun (w, run) => (w, f run); work) act := by
  intro w p
  rw [outcome_bind, outcome_modify]
  exact h w (f p)

end Follows

namespace Pipeline

/-- The work of a run up to its build. -/
def cleared (h : Host σ) (p : Pipeline) : Action σ Unit := do
  let _ ← Toolchain.provision h ⟨p.directory, p.config.stageTimeout⟩ p.config.toolchain
  p.build.prepare p.config.aggregation.reportPath

/-- The work of a run up to the profiles that the tests leave. -/
def profiles (h : Host σ) (p : Pipeline) : Action σ Profile.Collection := do
  let _ ← Toolchain.provision h ⟨p.directory, p.config.stageTimeout⟩ p.config.toolchain
  p.build.prepare p.config.aggregation.reportPath
  let _ ← p.build.build h
  p.build.test h

/-- The work of a run up to what is read of the coverage tool's output. -/
def rawText (h : Host σ) (p : Pipeline) : Action σ String := do
  let profiles ← p.profiles h
  p.aggregation.raw h profiles

/-- The work of a run up to its report. -/
def reported (h : Host σ) (p : Pipeline) : Action σ Coverage.Report := do
  let profiles ← p.profiles h
  p.aggregation.aggregate h profiles

/-- The work of a run. -/
def work (h : Host σ) (p : Pipeline) (origin : Origin) (credential : Credential) :
    Action σ Unit := do
  let profiles ← p.profiles h
  let report ← p.aggregation.aggregate h profiles
  let _ ← Action.upload h report credential origin

theorem profiles_eq (h : Host σ) (p : Pipeline) : p.profiles h = (do
    p.cleared h
    let _ ← p.build.build h
    p.build.test h) := by
  simp [profiles, cleared]

theorem work_eq (h : Host σ) (p : Pipeline) (origin : Origin) (credential : Credential) :
    p.work h origin credential = (do
      let report ← p.reported h
      let _ ← Action.upload h report credential origin) := by
  simp [work, reported]

/-- The stages do the work of the run, whatever they write down. -/
theorem follows_drive (h : Host σ) (p : Pipeline) (origin : Origin) (credential : Credential) :
    Follows (p.drive h origin credential) (p.work h origin credential) := by
  have hstages : p.work h origin credential = (do
      let _ ← Toolchain.provision h ⟨p.directory, p.config.stageTimeout⟩ p.config.toolchain
      (do p.build.prepare p.config.aggregation.reportPath; let _ ← p.build.build h)
      let profiles ← p.build.test h
      let report ← p.aggregation.aggregate h profiles
      let _ ← Action.upload h report credential origin) := by
    simp [work, profiles]
  -- preparing and building are one stage
  rw [hstages]
  exact .bind (.stage _) fun _ => .bind (.stage _) fun _ => .bind (.stage _) fun profiles =>
    .bind (.stage _) fun report => .account _ (.bind (.stage _) fun receipt => fun _ _ => ⟨rfl, rfl⟩)

/-- The configuration of a pipeline has been checked section by section. -/
theorem sections_valid (p : Pipeline) :
    p.config.toolchain.validate = .ok () ∧ p.config.instrumentation.validate = .ok () ∧
      p.config.aggregation.validate = .ok () := by
  have hall := p.valid
  unfold Config.validate at hall
  cases htrigger : p.config.trigger.validate <;> rw [htrigger] at hall
  case error => cases hall
  cases htoolchain : p.config.toolchain.validate <;> rw [htoolchain] at hall
  case error => cases hall
  cases hbuild : p.config.instrumentation.validate <;> rw [hbuild] at hall
  case error => cases hall
  cases haggregation : p.config.aggregation.validate <;> rw [haggregation] at hall
  case error => cases hall
  exact ⟨rfl, rfl, rfl⟩

theorem stops_provision (hh : Admits h allowed) (p : Pipeline) :
    Stops allowed
      (Toolchain.provision h ⟨p.directory, p.config.stageTimeout⟩ p.config.toolchain) :=
  Toolchain.stops_provision hh _ fun _ hf => by rw [p.sections_valid.1] at hf; cases hf

theorem stops_prepare (p : Pipeline) (report : Path) :
    Stops allowed (p.build.prepare report : Action σ Unit) :=
  Instrumentation.Build.stops_prepare (fun _ hf => by
    rw [show p.build.settings.validate = .ok () from p.sections_valid.2.1] at hf; cases hf) report

theorem stops_profiles (hh : Admits h allowed) (p : Pipeline) : Stops allowed (p.profiles h) :=
  .bind (p.stops_provision hh) fun _ => .bind (p.stops_prepare _) fun _ =>
    .bind (p.build.stops_build hh) fun _ => p.build.stops_test hh

/-- A host that answers brings the work of a run to an end. -/
theorem work_ends (hh : h.Answers) (p : Pipeline) (origin : Origin) (credential : Credential)
    (w : World σ) (late : Option Late) :
    (outcome (p.work h origin credential) w).1 ≠ .error (.unending late) := by
  have hadmits : Admits h (· ≠ .unending late) :=
    ⟨fun _ _ => by simp, fun _ _ => by simp, .inl hh⟩
  have hstops : Stops (· ≠ .unending late) (p.work h origin credential) :=
    .bind (stops_profiles hadmits p) fun _ =>
      .bind (p.aggregation.stops_aggregate hadmits (by simp) _ fun _ _ _ => by simp) fun _ =>
        .bind (.upload hadmits _ _ _) fun _ => .pure _
  intro ho
  exact hstops w (.unending late) _ (Prod.ext ho rfl) rfl

/-- The work of a run ends in an overflow exactly if what is read of the tool's output does. -/
theorem work_overflow_iff (h : Host σ) (p : Pipeline) (origin : Origin) (credential : Credential)
    (w : World σ) : (outcome (p.work h origin credential) w).1 = .error .overflow ↔
      ∃ text, (outcome (p.rawText h) w).1 = .ok text ∧
        Coverage.Report.parse text = .error .overflow := by
  have hadmits : Admits h (· ≠ .overflow) :=
    ⟨fun _ _ => by simp, fun _ _ => by simp, .inr (by simp)⟩
  unfold work rawText
  rw [outcome_bind, outcome_bind]
  rcases ho : outcome (p.profiles h) w with ⟨halt | profiles, w'⟩
  · -- nothing before the aggregation adds counts
    have hne := stops_profiles hadmits p w halt w' ho
    simp [hne]
  simp only
  rw [← p.aggregation.aggregate_overflow_iff h profiles w', outcome_bind]
  rcases outcome (p.aggregation.aggregate h profiles) w' with ⟨halt | report, w''⟩
  · simp
  have hstops : Stops (· ≠ .overflow)
      (do let _ ← Action.upload h report credential origin : Action σ Unit) :=
    .bind (.upload hadmits _ _ _) fun _ => .pure _
  simp only [reduceCtorEq, iff_false]
  exact fun hover => hstops w'' .overflow _ (Prod.ext hover rfl) rfl

end Pipeline

end Run

end CoverageRun
