/-
What provisioning asks of a host: a plan made of what the host tells of what is installed. Its
commands are issued in order; one that does not pass ends the work, except that a tool that does not
tell its version, or cannot be started, is installed.
-/
import CoverageRun.Proofs.Host.Calls
import CoverageRun.Toolchain.Provision

namespace CoverageRun

/-- An answer that settles whether a program is there: it has run, or it could not be started. -/
def Answer.settles : Answer Completion → Bool
  | .completed _ => true
  | .failed (.io _) => true
  | _ => false

namespace Toolchain

/-! ## The plan -/

/-- What a host tells of what is installed: a listing of channels, one of components, and whether the
tool tells its version. -/
structure Inventory where
  channels : String
  components : String
  tool : Bool

/-- The components that a listing does not show. -/
def missing (spec : Needs) (listing : String) : List String :=
  spec.components.keys.filter fun c => !listsComponent (components listing) c

/-- The commands for what a channel must have: the components not shown are added, and the tool is
installed unless it is there. -/
def planFor (s : Site) (spec : Needs) (listing : String) (tool : Bool) : List Command :=
  [s.command (listComponents spec.channel)] ++
    ((missing spec listing).map (fun c => s.command (addComponent spec.channel c)) ++
      ([s.command (askVersion spec.tool)] ++ if tool then [] else [s.command (installTool spec.tool)]))

/-- The commands that an inventory asks for. -/
def plan (s : Site) (spec : Needs) (i : Inventory) : List Command :=
  [s.command listChannels] ++
    ((if lists i.channels spec.channel then [] else [s.command (installChannel spec.channel)]) ++
      planFor s spec i.components i.tool)

/-- What an inventory leaves to be installed. -/
def Inventory.changes (i : Inventory) (spec : Needs) : Changes :=
  ⟨!lists i.channels spec.channel, missing spec i.components, !i.tool⟩

/-- Whether a run may go on after a call: its command has passed, or it asked for the version of the
tool and is answered. -/
def accepts (s : Site) (spec : Needs) : Call → Bool
  | .command c answer => answer.passes || (c == s.command (askVersion spec.tool) && answer.settles)
  | .upload .. => true

/-- The names of the commands that ask what is installed. -/
def questions : List String := ["rustup_toolchain_list", "rustup_component_list", "tool_version"]

/-- The inventory is what the answers tell. -/
structure Inventory.ToldBy (i : Inventory) (s : Site) (spec : Needs) (calls : List Call) : Prop where
  channels : ∀ answer, .command (s.command listChannels) answer ∈ calls → answer.output = i.channels
  components : ∀ answer, .command (s.command (listComponents spec.channel)) answer ∈ calls →
    answer.output = i.components
  tool : ∀ answer, .command (s.command (askVersion spec.tool)) answer ∈ calls →
    answer.passes = i.tool

@[simp]
theorem command_name (s : Site) (c : String × List String) : (s.command c).name = c.1 := rfl

@[simp]
theorem command_inj {s : Site} {c c' : String × List String} :
    s.command c = s.command c' ↔ c = c' := by
  simp [Site.command, Command.make, Command.inDirectory, Prod.ext_iff]

/-! ## Properties of the plan -/

/-- What is missing is in order, none of it twice. -/
theorem missing_ascending (spec : Needs) (listing : String) :
    (missing spec listing).Pairwise fun a b => compare a b = .lt :=
  (List.pairwise_map.2 spec.components.ascending).filter _

theorem plan_nodup (s : Site) (spec : Needs) (i : Inventory) : (plan s spec i).Nodup := by
  have hadds : ((missing spec i.components).map fun c =>
      s.command (addComponent spec.channel c)).Nodup := by
    refine List.pairwise_map.2 ((missing_ascending spec i.components).imp fun {a b} hlt heq => ?_)
    have hab : a = b := by simpa [addComponent] using heq
    have hself : compare b b = .eq := Std.ReflCmp.compare_self
    rw [hab, hself] at hlt
    cases hlt
  unfold plan planFor
  -- the additions differ from one another, and by their names from all other commands
  generalize hmap : (missing spec i.components).map (fun c => s.command (addComponent spec.channel c)) =
    adds at hadds ⊢
  have hne : ∀ a ∈ adds, ∀ c, c.1 ≠ "rustup_component_add" → a ≠ s.command c := by
    rintro a hm c hc rfl
    obtain ⟨component, -, heq⟩ := List.mem_map.1 (hmap ▸ hm)
    exact hc (congrArg Command.name heq).symm
  have hnot : ∀ c, c.1 ≠ "rustup_component_add" → s.command c ∉ adds := fun c hc hm =>
    hne _ hm c hc rfl
  cases lists i.channels spec.channel <;> cases i.tool <;>
    simp +contextual [List.nodup_append, hadds, hne, hnot, listChannels, installChannel, listComponents,
      askVersion, installTool]

theorem plan_names (s : Site) (spec : Needs) (i : Inventory) : ∀ c ∈ plan s spec i,
    c.name ∈ ["rustup_toolchain_list", "rustup_toolchain_install", "rustup_component_list",
      "rustup_component_add", "tool_version", "cargo_install"] := by
  intro c hc
  simp only [plan, planFor, List.mem_append, List.mem_map, List.mem_singleton] at hc
  rcases hc with rfl | hc | rfl | ⟨component, -, rfl⟩ | rfl | hc
  · simp [listChannels]
  · split at hc <;> simp at hc
    simp [hc, installChannel]
  · simp [listComponents]
  · simp [addComponent]
  · simp [askVersion]
  · split at hc <;> simp at hc
    simp [hc, installTool]

/-! ## What answers tell -/

namespace Inventory.ToldBy

variable {i : Inventory} {s : Site} {spec : Needs} {calls calls' : List Call}

theorem append (h : i.ToldBy s spec calls) (h' : i.ToldBy s spec calls') :
    i.ToldBy s spec (calls ++ calls') :=
  ⟨fun answer hm => (List.mem_append.1 hm).elim (h.channels answer) (h'.channels answer),
    fun answer hm => (List.mem_append.1 hm).elim (h.components answer) (h'.components answer),
    fun answer hm => (List.mem_append.1 hm).elim (h.tool answer) (h'.tool answer)⟩

/-- Calls that ask for nothing tell nothing. -/
theorem of_names (i : Inventory) (h : ∀ c ∈ commands calls, c.name ∉ questions) :
    i.ToldBy s spec calls :=
  ⟨fun _ hm => absurd (by simp [listChannels, questions]) (h _ (mem_commands hm)),
    fun _ hm => absurd (by simp [listComponents, questions]) (h _ (mem_commands hm)),
    fun _ hm => absurd (by simp [askVersion, questions]) (h _ (mem_commands hm))⟩

/-- Calls that keep to a plan which asks for nothing tell nothing. -/
theorem of_keeps {accepts : Call → Bool} {plan : List Command} {goesOn : Bool} (i : Inventory)
    (hkeeps : Keeps accepts plan goesOn calls)
    (hplan : ∀ c ∈ plan, c.name ∉ questions) : i.ToldBy s spec calls :=
  .of_names i fun c hc => hplan c (hkeeps.planned.subset hc)

theorem listed (answer : Answer Completion) (components : String) (tool : Bool) :
    (⟨answer.output, components, tool⟩ : Inventory).ToldBy s spec
      [.command (s.command listChannels) answer] := by
  constructor <;> simp +contextual [listChannels, listComponents, askVersion]

theorem componentsListed (answer : Answer Completion) (channels : String) (tool : Bool) :
    (⟨channels, answer.output, tool⟩ : Inventory).ToldBy s spec
      [.command (s.command (listComponents spec.channel)) answer] := by
  constructor <;> simp +contextual [listChannels, listComponents, askVersion]

theorem asked (answer : Answer Completion) (channels components : String) :
    (⟨channels, components, answer.passes⟩ : Inventory).ToldBy s spec
      [.command (s.command (askVersion spec.tool)) answer] := by
  constructor <;> simp +contextual [listChannels, listComponents, askVersion]

end Inventory.ToldBy

/-! ## Step by step -/

variable {σ : Type} {h : Host σ} (s : Site) (spec : Needs)

theorem keeps_of_passes {c : Command} {answer : Answer Completion} {goesOn : Bool}
    (hp : goesOn = true → answer.passes = true) :
    Keeps (accepts s spec) [c] goesOn [.command c answer] :=
  .single fun hgo => by simp [accepts, hp hgo]

theorem records_query (c : String × List String) :
    Records (query h.recorded s c) (query h s c) fun r calls => ∃ answer,
      calls = [.command (s.command c) answer] ∧ Keeps (accepts s spec) [s.command c] r.isOk calls ∧
        ∀ text, r = .ok text → text = answer.output := by
  refine (Records.issuePassing fun out => (Records.pure out.stdout).mono fun r calls hr =>
    (⟨hr.1, out.stdout, hr.2, rfl⟩ : calls = [] ∧ ∃ a, r = .ok a ∧ a = out.stdout)).mono ?_
  rintro r calls ⟨answer, rfl, ⟨out, text, rfl, hp, rfl, rfl⟩ | ⟨hp, halt, rfl, -⟩⟩
  · exact ⟨_, rfl, keeps_of_passes s spec fun _ => hp, fun text htext => (Except.ok.inj htext).symm⟩
  · exact ⟨_, rfl, keeps_of_passes s spec (by intro hgo; cases hgo), fun text htext => by cases htext⟩

theorem records_install (c : String × List String) (complaint : String) :
    Records (install h.recorded s c complaint) (install h s c complaint) fun r calls =>
      Keeps (accepts s spec) [s.command c] r.isOk calls := by
  refine (Records.issuePassing fun out => (Records.pure ()).mono fun r calls hr =>
    (⟨hr.1, (), hr.2, trivial⟩ : calls = [] ∧ ∃ a, r = .ok a ∧ True)).mono ?_
  rintro r calls ⟨answer, rfl, ⟨out, a, rfl, hp, rfl, -⟩ | ⟨hp, halt, rfl, -⟩⟩
  · exact keeps_of_passes s spec fun _ => hp
  · exact keeps_of_passes s spec fun hgo => by cases hgo

/-- A tool that tells its version is there; one that has run without, or could not be started, is
not. -/
theorem records_hasTool : Records (hasTool h.recorded s spec.tool) (hasTool h s spec.tool)
    fun r calls => ∃ answer, calls = [.command (s.command (askVersion spec.tool)) answer] ∧
      Keeps (accepts s spec) [s.command (askVersion spec.tool)] r.isOk calls ∧
        ∀ present, r = .ok present → present = answer.passes := by
  unfold hasTool
  refine (Records.tryCatch (U := fun halt r calls => calls = [] ∧
    ((∃ reason, halt = .failure (.io reason)) ∧ r = .ok false ∨
      (∀ reason, halt ≠ .failure (.io reason)) ∧ r = .error halt))
    (Records.bind (Records.issue h _) fun out => Records.pure out.passed) ?_).mono ?_
  · intro halt
    split
    · exact (Records.pure false).mono fun r calls hr => ⟨hr.1, .inl ⟨⟨_, rfl⟩, hr.2⟩⟩
    · rename_i hother
      exact (Records.throw _).mono fun r calls hr => ⟨hr.1, .inr ⟨hother, hr.2⟩⟩
  · rintro r calls (⟨passed, rfl, hrun⟩ | ⟨halt, first, rest, hstop, ⟨rfl, hr⟩, rfl⟩)
    · rcases hrun with ⟨halt, hr, -⟩ | ⟨out, first, rest, ⟨answer, rfl, hanswer⟩, ⟨rfl, hr⟩, rfl⟩
      · cases hr
      cases answer <;> cases hanswer
      cases hr
      exact ⟨_, rfl, .single fun _ => by simp [accepts, Answer.settles],
        fun present hp => (Except.ok.inj hp).symm⟩
    · rcases hstop with ⟨halt', hhalt, answer, rfl, hanswer⟩ | ⟨out, _, _, _, ⟨-, hr'⟩, -⟩
      case inr => cases hr'
      cases hhalt
      rcases hr with ⟨⟨reason, rfl⟩, rfl⟩ | ⟨hother, rfl⟩
      · cases answer <;> cases hanswer
        exact ⟨_, rfl, .single fun _ => by simp [accepts, Answer.settles],
          fun present hp => (Except.ok.inj hp).symm⟩
      · exact ⟨_, rfl, .single (by intro hgo; cases hgo), fun present hp => by cases hp⟩

/-- Components are added in order, those that are listed left out, and the others are named. -/
theorem records_addMissing (entries : List String) : ∀ cs,
    Records (addMissing h.recorded s spec.channel entries cs) (addMissing h s spec.channel entries cs)
      fun r calls => Keeps (accepts s spec)
        ((cs.filter fun c => !listsComponent entries c).map fun c =>
          s.command (addComponent spec.channel c)) r.isOk calls ∧
        ∀ added, r = .ok added → added = cs.filter fun c => !listsComponent entries c
  | [] => (Records.pure []).mono fun r calls hr =>
      ⟨hr.1 ▸ .nil _, fun added heq => (Except.ok.inj (hr.2.symm.trans heq)).symm⟩
  | c :: cs => by
    unfold addMissing
    by_cases hlisted : listsComponent entries c = true
    · simp only [hlisted, if_true, Bool.not_true, Bool.false_eq_true, not_false_eq_true,
        List.filter_cons_of_neg]
      exact records_addMissing entries cs
    · simp only [hlisted, if_false, Bool.not_false, List.filter_cons_of_pos, List.map_cons,
        Bool.false_eq_true]
      refine (Records.bind (records_install s spec _ _) fun _ =>
        Records.bind (records_addMissing entries cs) fun added => Records.pure (c :: added)).mono ?_
      rintro r calls (⟨halt, rfl, hstop⟩ | ⟨_, first, rest, hadd, hrest, rfl⟩)
      · exact ⟨hstop.stop _, by intro _ heq; cases heq⟩
      · rcases hrest with ⟨halt, rfl, hstop, -⟩ | ⟨added, before, after, ⟨hcs, hadded⟩, ⟨rfl, rfl⟩, rfl⟩
        · exact ⟨hadd.append hstop, by intro _ heq; cases heq⟩
        · rw [List.append_nil]
          refine ⟨hadd.append hcs, ?_⟩
          rintro _ ⟨⟩
          rw [hadded added rfl]

/-! ## Provisioning -/

/-- What is done once the channel is there: what is missing of its components and the tool is
installed. -/
def furnish (h : Host σ) (s : Site) (spec : Needs) (listed : Bool) : Action σ Changes := do
  let entries := components (← query h s (listComponents spec.channel))
  let added ← addMissing h s spec.channel entries spec.components.keys
  let present ← hasTool h s spec.tool
  if !present then install h s (installTool spec.tool) s!"could not install {spec.tool}"
  return ⟨!listed, added, !present⟩

/-- What is done once the channels are listed: the channel is installed unless it is among them. -/
def secure (h : Host σ) (s : Site) (spec : Needs) (channels : String) : Action σ Changes := do
  if !lists channels spec.channel then
    install h s (installChannel spec.channel) s!"toolchain {spec.channel} is not available"
  furnish h s spec (lists channels spec.channel)

theorem provision_eq (h : Host σ) (s : Site) (spec : Needs) :
    provision h s spec = (do
      Action.ofExcept (fun f => .config f.message) spec.validate
      secure h s spec (← query h s listChannels)) := rfl

/-- Something is installed unless it is there, and what follows keeps to its own plan. -/
theorem records_unless {α : Type} {work' : Action (σ × List Call) α} {work : Action σ α}
    {T : Except Halt α → List Call → Prop} (there : Bool) (c : String × List String)
    (complaint : String) (hwork : Records work' work T) :
    Records
      (do
        if !there then install h.recorded s c complaint
        work')
      (do
        if !there then install h s c complaint
        work)
      fun r calls =>
        Keeps (accepts s spec) [s.command c] false calls ∧ there = false ∧ r.isOk = false ∨
        ∃ first rest, Keeps (accepts s spec) (if there then [] else [s.command c]) true first ∧
          T r rest ∧ calls = first ++ rest := by
  cases there with
  | true => exact hwork.mono fun r calls ht => .inr ⟨[], calls, .nil _, ht, rfl⟩
  | false =>
    refine (Records.bind (records_install s spec c complaint) fun _ => hwork).mono ?_
    rintro r calls (⟨halt, rfl, hstop⟩ | ⟨_, first, rest, hpass, ht, rfl⟩)
    · exact .inl ⟨hstop, rfl, rfl⟩
    · exact .inr ⟨first, rest, hpass, ht, rfl⟩

/-- The components are listed, and what is missing of them and of the tool is installed. -/
theorem records_furnish (listed : Bool) :
    Records (furnish h.recorded s spec listed) (furnish h s spec listed) fun r calls =>
      ∀ channels, ∃ listing tool,
        (⟨channels, listing, tool⟩ : Inventory).ToldBy s spec calls ∧
        Keeps (accepts s spec) (planFor s spec listing tool) r.isOk calls ∧
        ∀ changes, r = .ok changes → changes = ⟨!listed, missing spec listing, !tool⟩ := by
  refine (Records.bind (records_query s spec _) fun text =>
    Records.bind (records_addMissing s spec _ _) fun added =>
    Records.bind (records_hasTool s spec) fun present =>
    records_unless s spec present _ _ (Records.pure _)).mono ?_
  have hadds : ∀ listing, ∀ c ∈ (missing spec listing).map fun c =>
      s.command (addComponent spec.channel c), c.name ∉ questions := by
    intro listing c hc
    obtain ⟨name, -, rfl⟩ := List.mem_map.1 hc
    simp [addComponent, questions]
  have hinstall : ∀ tool : Bool, ∀ c ∈ if tool then [] else [s.command (installTool spec.tool)],
      c.name ∉ questions := by
    intro tool c hc
    cases tool <;> simp at hc
    subst hc
    simp [installTool, questions]
  rintro r calls (⟨halt, rfl, answer, rfl, hstop, -⟩ |
    ⟨text, first, rest, ⟨answer, rfl, hlist, htext⟩, hrest, rfl⟩) channels
  · exact ⟨answer.output, true, .componentsListed answer channels true, hstop.stop _,
      by intro _ heq; cases heq⟩
  obtain rfl := htext text rfl
  have htold : ∀ tool, (⟨channels, answer.output, tool⟩ : Inventory).ToldBy s spec
      [.command (s.command (listComponents spec.channel)) answer] :=
    .componentsListed answer channels
  rcases hrest with ⟨halt, rfl, hstop, -⟩ | ⟨added, first, rest, ⟨hadd, hadded⟩, hrest, rfl⟩
  · exact ⟨answer.output, true, (htold true).append (.of_keeps _ hstop (hadds _)),
      hlist.append (hstop.stop _), by intro _ heq; cases heq⟩
  rcases hrest with ⟨halt, rfl, version, rfl, hstop, -⟩ |
    ⟨present, first', rest', ⟨version, rfl, hask, hpresent⟩, htool, rfl⟩
  · refine ⟨answer.output, version.passes, ?_, hlist.append (hadd.append (hstop.stop _)),
      by intro _ heq; cases heq⟩
    exact (htold _).append (.append (.of_keeps _ hadd (hadds _)) (.asked version channels _))
  · obtain rfl := hpresent present rfl
    have hkeeps : Keeps (accepts s spec)
        (if version.passes then [] else [s.command (installTool spec.tool)]) r.isOk rest' ∧
        ∀ changes, r = .ok changes → changes = ⟨!listed, added, !version.passes⟩ := by
      rcases htool with ⟨hstop, hmissing, hr⟩ | ⟨first, rest, hpass, ⟨rfl, rfl⟩, rfl⟩
      · rw [hmissing, hr]
        exact ⟨hstop, by rintro _ rfl; cases hr⟩
      · rw [List.append_nil]
        exact ⟨hpass, by rintro _ ⟨⟩; rfl⟩
    refine ⟨answer.output, version.passes, ?_, hlist.append (hadd.append (hask.append hkeeps.1)), ?_⟩
    · exact (htold _).append (.append (.of_keeps _ hadd (hadds _))
        (.append (.asked version channels _) (.of_keeps _ hkeeps.1 (hinstall _))))
    · intro changes heq
      rw [hkeeps.2 changes heq, hadded added rfl]
      rfl

/-- The channel is installed unless it is listed, and what it must have after it. -/
theorem records_secure (channels : String) :
    Records (secure h.recorded s spec channels) (secure h s spec channels) fun r calls =>
      ∃ listing tool, (⟨channels, listing, tool⟩ : Inventory).ToldBy s spec calls ∧
        Keeps (accepts s spec)
          ((if lists channels spec.channel then [] else [s.command (installChannel spec.channel)]) ++
            planFor s spec listing tool) r.isOk calls ∧
        ∀ changes, r = .ok changes →
          changes = (⟨channels, listing, tool⟩ : Inventory).changes spec := by
  refine (records_unless s spec (lists channels spec.channel) _ _ (records_furnish s spec _)).mono ?_
  have hinstall : ∀ c ∈ [s.command (installChannel spec.channel)], c.name ∉ questions := by
    simp [installChannel, questions]
  rintro r calls (⟨hstop, hmissing, hr⟩ | ⟨first, rest, hpass, hrest, rfl⟩)
  · rw [hmissing, hr]
    exact ⟨"", true, .of_keeps _ hstop hinstall, hstop.stop _, by rintro _ rfl; cases hr⟩
  · obtain ⟨listing, tool, htold, hkeeps, hchanges⟩ := hrest channels
    refine ⟨listing, tool, .append (.of_keeps _ hpass ?_) htold, hpass.append hkeeps, hchanges⟩
    intro c hc
    split at hc
    · cases hc
    · exact hinstall c hc

/-- Provisioning keeps to the plan that the answers make, and reports what that plan installs. -/
theorem records_provision :
    Records (provision h.recorded s spec) (provision h s spec) fun r calls => ∃ i : Inventory,
      i.ToldBy s spec calls ∧ Keeps (accepts s spec) (plan s spec i) r.isOk calls ∧
        ∀ changes, r = .ok changes → changes = i.changes spec := by
  rw [provision_eq, provision_eq]
  refine (Records.bind (Records.ofExcept _ _) fun _ => Records.bind (records_query s spec _)
    fun channels => records_secure s spec channels).mono ?_
  rintro r calls (⟨halt, rfl, rfl, -⟩ | ⟨_, first, rest, ⟨rfl, -⟩, hrest, rfl⟩)
  · exact ⟨⟨"", "", true⟩, .of_names _ (by simp), (Keeps.nil false).stop _,
      by intro _ heq; cases heq⟩
  rcases hrest with ⟨halt, rfl, answer, rfl, hstop, -⟩ |
    ⟨text, first, rest, ⟨answer, rfl, hlist, htext⟩, ⟨listing, tool, htold, hkeeps, hchanges⟩, rfl⟩
  · exact ⟨⟨answer.output, "", true⟩, .listed answer _ _, hstop.stop _, by intro _ heq; cases heq⟩
  · obtain rfl := htext text rfl
    exact ⟨⟨answer.output, listing, tool⟩, (Inventory.ToldBy.listed answer _ _).append htold,
      hlist.append hkeeps, hchanges⟩

end Toolchain

end CoverageRun
