/-
What a host is asked for. A recording host answers as the host does that it stands for and keeps
each call with its answer. Work is described by what it records and by what it comes to then; the
work of the host itself comes to the same.
-/
import CoverageRun.Proofs.Host.Action

namespace CoverageRun

/-! ## Calls -/

/-- A call of a host, with its answer. -/
inductive Call where
  | command (c : Command) (answer : Answer Completion)
  | upload (report : Coverage.Report) (credential : Credential) (origin : Origin)
    (answer : Answer Upload.Receipt)

/-- The command of a call. -/
def Call.command? : Call → Option Command
  | .command c _ => some c
  | .upload .. => none

/-- The report of a call. -/
def Call.report? : Call → Option Coverage.Report
  | .command .. => none
  | .upload report .. => some report

/-- The commands among calls. -/
def commands (calls : List Call) : List Command := calls.filterMap Call.command?

/-- The reports among calls. -/
def uploads (calls : List Call) : List Coverage.Report := calls.filterMap Call.report?

@[simp]
theorem commands_nil : commands [] = [] := rfl

@[simp]
theorem uploads_nil : uploads [] = [] := rfl

@[simp]
theorem commands_command (c : Command) (answer : Answer Completion) (calls : List Call) :
    commands (.command c answer :: calls) = c :: commands calls := rfl

@[simp]
theorem uploads_command (c : Command) (answer : Answer Completion) (calls : List Call) :
    uploads (.command c answer :: calls) = uploads calls := rfl

@[simp]
theorem commands_append (calls calls' : List Call) :
    commands (calls ++ calls') = commands calls ++ commands calls' := List.filterMap_append

@[simp]
theorem uploads_append (calls calls' : List Call) :
    uploads (calls ++ calls') = uploads calls ++ uploads calls' := List.filterMap_append

theorem mem_commands {c : Command} {answer : Answer Completion} {calls : List Call}
    (h : .command c answer ∈ calls) : c ∈ commands calls :=
  List.mem_filterMap.2 ⟨_, h, rfl⟩

theorem exists_of_mem_commands {c : Command} {calls : List Call} (h : c ∈ commands calls) :
    ∃ answer, .command c answer ∈ calls := by
  obtain ⟨call, hcall, heq⟩ := List.mem_filterMap.1 h
  cases call with
  | command c' answer =>
    cases heq
    exact ⟨answer, hcall⟩
  | upload => cases heq

/-- Whether a command has passed. -/
def Answer.passes : Answer Completion → Bool
  | .completed out => out.passed
  | _ => false

/-- What a command wrote to its output. -/
def Answer.output : Answer Completion → String
  | .completed out => out.stdout
  | _ => ""

/-! ## Recording hosts -/

variable {σ α β : Type}

/-- What work stops for after a call of a host: a failure of some kind if the command has run and not
passed, and else what the host has answered with. -/
inductive Call.StopsFor (h : Host σ) (kind : Failure → Prop) : Call → Halt → Prop
  | unpassed {c : Command} {out : Completion} {f : Failure} : out.passed = false → kind f →
    StopsFor h kind (.command c (.completed out)) (.failure f)
  | failed {c : Command} {f : Failure} : (∃ t s, (h.run c t s).1 = .failed f) →
    StopsFor h kind (.command c (.failed f)) (.failure f)
  | unending {c : Command} : StopsFor h kind (.command c .unending) (.unending none)

/-- The host, keeping the calls it is asked for. -/
def Host.recorded (h : Host σ) : Host (σ × List Call) where
  run c t s :=
    let (answer, t, host) := h.run c t s.1
    (answer, t, host, s.2 ++ [.command c answer])
  publish report credential origin s :=
    let (answer, host) := h.publish report credential origin s.1
    (answer, host, s.2 ++ [.upload report credential origin answer])
  overtakes op t s := h.overtakes op t s.1
  refuses := h.refuses

namespace World

/-- The world of a host that begins to record. -/
def recording (w : World σ) : World (σ × List Call) := ⟨w.tree, (w.host, []), w.issued⟩

/-- The world of a recording host without the record. -/
def plain (w : World (σ × List Call)) : World σ := ⟨w.tree, w.host.1, w.issued⟩

@[simp]
theorem plain_recording (w : World σ) : w.recording.plain = w := rfl

end World

/-- Work of a recording host that is other work where nothing is recorded; and `T` is true of what it
comes to and the calls that it records. -/
def Records (work' : Action (σ × List Call) α) (work : Action σ α)
    (T : Except Halt α → List Call → Prop) : Prop :=
  ∀ w, ∃ calls,
    outcome work w.plain = ((outcome work' w).1, (outcome work' w).2.plain) ∧
    (outcome work' w).2.host.2 = w.host.2 ++ calls ∧
    (outcome work' w).2.issued = w.issued ++ commands calls ∧
    T (outcome work' w).1 calls

namespace Records

variable {T T' : Except Halt α → List Call → Prop}

theorem mono {work' : Action (σ × List Call) α} {work : Action σ α} (h : Records work' work T)
    (himp : ∀ r calls, T r calls → T' r calls) : Records work' work T' := by
  intro w
  obtain ⟨calls, hsame, hhost, hissued, ht⟩ := h w
  exact ⟨calls, hsame, hhost, hissued, himp _ _ ht⟩

/-- Work records one list of calls, so two facts about them hold together. -/
theorem both {work' : Action (σ × List Call) α} {work : Action σ α} (h : Records work' work T)
    (h' : Records work' work T') : Records work' work fun r calls => T r calls ∧ T' r calls := by
  intro w
  obtain ⟨calls, hsame, hhost, hissued, ht⟩ := h w
  obtain ⟨calls', -, hhost', -, ht'⟩ := h' w
  obtain rfl := List.append_cancel_left (hhost.symm.trans hhost')
  exact ⟨calls, hsame, hhost, hissued, ht, ht'⟩

theorem stopping {work' : Action (σ × List Call) α} {work : Action σ α} {allowed : Halt → Prop}
    (h : Records work' work T) (hstops : Stops allowed work) :
    Records work' work fun r calls => T r calls ∧ ∀ halt, r = .error halt → allowed halt := by
  intro w
  obtain ⟨calls, hsame, hhost, hissued, ht⟩ := h w
  refine ⟨calls, hsame, hhost, hissued, ht, fun halt heq => ?_⟩
  rw [heq] at hsame
  exact hstops w.plain halt _ hsame

/-- Work of a host that begins to record. -/
theorem recording {work' : Action (σ × List Call) α} {work : Action σ α} (h : Records work' work T)
    (w : World σ) :
    outcome work w = ((outcome work' w.recording).1, (outcome work' w.recording).2.plain) ∧
      (outcome work' w.recording).2.issued =
        w.issued ++ commands (outcome work' w.recording).2.host.2 ∧
      T (outcome work' w.recording).1 (outcome work' w.recording).2.host.2 := by
  obtain ⟨calls, hsame, hhost, hissued, ht⟩ := h w.recording
  obtain rfl : (outcome work' w.recording).2.host.2 = calls := hhost
  exact ⟨hsame, hissued, ht⟩

theorem pure (a : α) : Records (pure a : Action (σ × List Call) α) (pure a : Action σ α)
    fun r calls => calls = [] ∧ r = .ok a := fun w =>
  ⟨[], rfl, by simp, by simp, rfl, rfl⟩

/-- What is left to do is to give a value. -/
theorem returns (a : α) : Records (Pure.pure a : Action (σ × List Call) α) (Pure.pure a : Action σ α)
    fun r calls => calls = [] ∧ ∃ a, r = .ok a :=
  (pure a).mono fun _ _ hr => ⟨hr.1, a, hr.2⟩

theorem throw (halt : Halt) : Records (throw halt : Action (σ × List Call) α)
    (throw halt : Action σ α) fun r calls => calls = [] ∧ r = .error halt := fun w =>
  ⟨[], rfl, by simp, by simp, rfl, rfl⟩

theorem bind {work' : Action (σ × List Call) α} {work : Action σ α}
    {f' : α → Action (σ × List Call) β} {f : α → Action σ β}
    {U : α → Except Halt β → List Call → Prop} (hwork : Records work' work T)
    (hf : ∀ a, Records (f' a) (f a) (U a)) :
    Records (work' >>= f') (work >>= f) fun r calls =>
      (∃ halt, r = .error halt ∧ T (.error halt) calls) ∨
      ∃ a first rest, T (.ok a) first ∧ U a r rest ∧ calls = first ++ rest := by
  intro w
  obtain ⟨first, hsame, hhost, hissued, ht⟩ := hwork w
  rw [outcome_bind, outcome_bind, hsame]
  rcases ho : outcome work' w with ⟨halt | a, w₁⟩ <;> rw [ho] at hhost hissued ht
  · exact ⟨first, rfl, hhost, hissued, .inl ⟨halt, rfl, ht⟩⟩
  · obtain ⟨rest, hsame', hhost', hissued', hu⟩ := hf a w₁
    refine ⟨first ++ rest, hsame', ?_, ?_, .inr ⟨a, first, rest, ht, hu, rfl⟩⟩
    · rw [hhost', hhost, List.append_assoc]
    · rw [hissued', hissued, commands_append, List.append_assoc]

theorem tryCatch {work' : Action (σ × List Call) α} {work : Action σ α}
    {f' : Halt → Action (σ × List Call) α} {f : Halt → Action σ α}
    {U : Halt → Except Halt α → List Call → Prop} (hwork : Records work' work T)
    (hf : ∀ halt, Records (f' halt) (f halt) (U halt)) :
    Records (tryCatch work' f') (tryCatch work f) fun r calls =>
      (∃ a, r = .ok a ∧ T (.ok a) calls) ∨
      ∃ halt first rest, T (.error halt) first ∧ U halt r rest ∧ calls = first ++ rest := by
  intro w
  obtain ⟨first, hsame, hhost, hissued, ht⟩ := hwork w
  rw [outcome_tryCatch, outcome_tryCatch, hsame]
  rcases ho : outcome work' w with ⟨halt | a, w₁⟩ <;> rw [ho] at hhost hissued ht
  · obtain ⟨rest, hsame', hhost', hissued', hu⟩ := hf halt w₁
    refine ⟨first ++ rest, hsame', ?_, ?_, .inr ⟨halt, first, rest, ht, hu, rfl⟩⟩
    · rw [hhost', hhost, List.append_assoc]
    · rw [hissued', hissued, commands_append, List.append_assoc]
  · exact ⟨first, rfl, hhost, hissued, .inl ⟨a, rfl, ht⟩⟩

theorem tree : Records (Action.tree : Action (σ × List Call) Files.Tree)
    (Action.tree : Action σ Files.Tree) fun r calls => calls = [] ∧ ∃ t, r = .ok t := fun w =>
  ⟨[], rfl, by simp, by simp, rfl, w.tree, rfl⟩

theorem setTree (t : Files.Tree) : Records (Action.setTree t : Action (σ × List Call) Unit)
    (Action.setTree t : Action σ Unit) fun r calls => calls = [] ∧ r = .ok () := fun w =>
  ⟨[], rfl, by simp, by simp, rfl, rfl⟩

theorem fail (f : Failure) : Records (Action.fail f : Action (σ × List Call) α)
    (Action.fail f : Action σ α) fun r calls => calls = [] ∧ r = .error (.failure f) :=
  throw (.failure f)

theorem ofExcept {ε : Type} (failure : ε → Failure) (r : Except ε α) :
    Records (Action.ofExcept failure r : Action (σ × List Call) α)
      (Action.ofExcept failure r : Action σ α)
      fun v calls => calls = [] ∧ v = r.mapError fun e => .failure (failure e) := by
  cases r with
  | ok a => exact pure a
  | error e => exact fail (failure e)

/-- A command is issued once, and the host answers. -/
theorem issue_answered (h : Host σ) (c : Command) :
    Records (Action.issue h.recorded c) (Action.issue h c) fun r calls => ∃ answer,
      calls = [.command c answer] ∧ r = answer.toExcept ∧ ∃ t s, (h.run c t s).1 = answer := by
  intro w
  refine ⟨[.command c (h.run c w.tree w.host.1).1], ?_, ?_, ?_, _, rfl, ?_, _, _, rfl⟩
  · rw [Action.outcome_issue, Action.outcome_issue]; rfl
  · rw [Action.outcome_issue]; rfl
  · rw [Action.outcome_issue]; rfl
  · rw [Action.outcome_issue]; rfl

theorem issue (h : Host σ) (c : Command) : Records (Action.issue h.recorded c) (Action.issue h c)
    fun r calls => ∃ answer, calls = [.command c answer] ∧ r = answer.toExcept :=
  (issue_answered h c).mono fun _ _ ⟨answer, hcalls, hr, _⟩ => ⟨answer, hcalls, hr⟩

theorem upload (h : Host σ) (report : Coverage.Report) (credential : Credential) (origin : Origin) :
    Records (Action.upload h.recorded report credential origin)
      (Action.upload h report credential origin)
      fun r calls => ∃ answer, calls = [.upload report credential origin answer] ∧
        r = answer.toExcept ∧ ∃ s, (h.publish report credential origin s).1 = answer := by
  intro w
  refine ⟨[.upload report credential origin (h.publish report credential origin w.host.1).1],
    ?_, ?_, ?_, _, rfl, ?_, _, rfl⟩
  · rw [Action.outcome_upload, Action.outcome_upload]; rfl
  · rw [Action.outcome_upload]; rfl
  · rw [Action.outcome_upload]; simp [commands, Call.command?]
  · rw [Action.outcome_upload]; rfl

/-- A command is issued that must pass, and nothing more is asked for. Where the work stops, it has
stopped for this call. -/
theorem issuePassing {h : Host σ} {c : Command} {good' : Completion → Action (σ × List Call) α}
    {good : Completion → Action σ α} {bad : Completion → Failure} {P : Completion → α → Prop}
    (hgood : ∀ out, Records (good' out) (good out) fun r calls =>
      calls = [] ∧ ∃ a, r = .ok a ∧ P out a) :
    Records
      (do let out ← Action.issue h.recorded c; if out.passed then good' out else Action.fail (bad out))
      (do let out ← Action.issue h c; if out.passed then good out else Action.fail (bad out))
      fun r calls => ∃ answer, calls = [.command c answer] ∧
        ((∃ out a, answer = .completed out ∧ out.passed = true ∧ r = .ok a ∧ P out a) ∨
          answer.passes = false ∧ ∃ halt, r = .error halt ∧
            (Call.command c answer).StopsFor h (fun f => ∃ out, f = bad out) halt) := by
  have hanswer : ∀ out : Completion,
      Records (if out.passed then good' out else Action.fail (bad out))
        (if out.passed then good out else Action.fail (bad out)) fun r calls => calls = [] ∧
          if out.passed = true then ∃ a, r = .ok a ∧ P out a else r = .error (.failure (bad out)) := by
    intro out
    by_cases hp : out.passed = true
    · simp only [if_pos hp]
      exact hgood out
    · simp only [if_neg hp]
      exact fail (bad out)
  refine (bind (issue_answered h c) hanswer).mono ?_
  rintro r calls (⟨halt, rfl, answer, rfl, hr, t, s, hrun⟩ |
    ⟨out, first, rest, ⟨answer, rfl, hr, -⟩, ⟨rfl, hu⟩, rfl⟩)
  · cases answer with
    | completed out => cases hr
    | failed f => cases hr; exact ⟨_, rfl, .inr ⟨rfl, _, rfl, .failed ⟨t, s, hrun⟩⟩⟩
    | unending => cases hr; exact ⟨_, rfl, .inr ⟨rfl, _, rfl, .unending⟩⟩
  · cases answer <;> cases hr
    split at hu
    · rename_i hp
      obtain ⟨a, hra, hP⟩ := hu
      exact ⟨_, rfl, .inl ⟨out, a, rfl, hp, hra, hP⟩⟩
    · rename_i hp
      have hunpassed : out.passed = false := (Bool.not_eq_true _).mp hp
      exact ⟨_, rfl, .inr ⟨hunpassed, _, hu, .unpassed hunpassed ⟨out, rfl⟩⟩⟩

end Records

/-- Work that calls nobody. -/
abbrev Silent (work' : Action (σ × List Call) α) (work : Action σ α) : Prop :=
  Records work' work fun _ calls => calls = []

namespace Silent

theorem bind {work' : Action (σ × List Call) α} {work : Action σ α}
    {f' : α → Action (σ × List Call) β} {f : α → Action σ β} (hwork : Silent work' work)
    (hf : ∀ a, Silent (f' a) (f a)) : Silent (work' >>= f') (work >>= f) := by
  refine (Records.bind hwork hf).mono ?_
  rintro r calls (⟨halt, -, hnil⟩ | ⟨a, first, rest, hfirst, hrest, rfl⟩)
  · exact hnil
  · rw [hfirst, hrest, List.append_nil]

theorem fail (f : Failure) : Silent (Action.fail f : Action (σ × List Call) α)
    (Action.fail f : Action σ α) :=
  (Records.fail f).mono fun _ _ h => h.1

theorem ofExcept {ε : Type} (failure : ε → Failure) (r : Except ε α) :
    Silent (Action.ofExcept failure r : Action (σ × List Call) α)
      (Action.ofExcept failure r : Action σ α) :=
  (Records.ofExcept failure r).mono fun _ _ h => h.1

theorem tree : Silent (Action.tree : Action (σ × List Call) Files.Tree)
    (Action.tree : Action σ Files.Tree) :=
  Records.tree.mono fun _ _ h => h.1

theorem setTree (t : Files.Tree) : Silent (Action.setTree t : Action (σ × List Call) Unit)
    (Action.setTree t : Action σ Unit) :=
  (Records.setTree t).mono fun _ _ h => h.1

theorem changeFiles (change : Files.Tree → Except Files.Fault Files.Tree) :
    Silent (Action.changeFiles change : Action (σ × List Call) Unit)
      (Action.changeFiles change : Action σ Unit) :=
  tree.bind fun _ => (ofExcept _ _).bind fun t => setTree t

/-- Whether a file operation is overtaken does not depend on the record. -/
theorem await (h : Host σ) (op : Files.Operation) :
    Silent (Action.await h.recorded op) (Action.await h op) := by
  intro w
  refine ⟨[], ?_⟩
  rw [Action.outcome_await, Action.outcome_await]
  simp only [Host.recorded, World.plain]
  cases h.overtakes op w.tree w.host.1 <;> simp

theorem perform (h : Host σ) (op : Files.Operation) :
    Silent (Action.perform h.recorded op) (Action.perform h op) :=
  (await h op).bind fun _ => changeFiles op.apply

end Silent

/-! ## Plans -/

/-- Calls that keep to a plan: only its commands are issued, from the first on and in order; all of
them where the work goes on, and none after one whose answer is not accepted. -/
structure Keeps (accepts : Call → Bool) (plan : List Command) (goesOn : Bool) (calls : List Call) :
    Prop where
  planned : commands calls <+: plan
  complete : goesOn = true → commands calls = plan
  prompt : ∀ call ∈ calls.dropLast, accepts call = true
  accepted : goesOn = true → ∀ call ∈ calls, accepts call = true
  uploads : uploads calls = []

namespace Keeps

variable {accepts : Call → Bool} {plan plan' : List Command} {goesOn : Bool} {calls calls' : List Call}

/-- Where nothing is to be done nothing is done. -/
theorem nil (goesOn : Bool) : Keeps accepts [] goesOn [] :=
  ⟨List.nil_prefix, fun _ => rfl, by simp, by simp, rfl⟩

/-- One command, accepted or not. -/
theorem single {c : Command} {answer : Answer Completion}
    (h : goesOn = true → accepts (.command c answer) = true) :
    Keeps accepts [c] goesOn [.command c answer] :=
  ⟨List.prefix_rfl, fun _ => rfl, by simp, by simpa using h, rfl⟩

/-- Work that stops leaves the rest of the plan undone. -/
theorem stop (h : Keeps accepts plan false calls) (rest : List Command) :
    Keeps accepts (plan ++ rest) false calls :=
  ⟨h.planned.trans (List.prefix_append _ _), by simp, h.prompt, by simp, h.uploads⟩

/-- Work that goes on is followed by the rest of the plan. -/
theorem append (h : Keeps accepts plan true calls) (h' : Keeps accepts plan' goesOn calls') :
    Keeps accepts (plan ++ plan') goesOn (calls ++ calls') := by
  have hall := h.accepted rfl
  constructor
  case planned =>
    rw [commands_append, h.complete rfl]
    exact (List.prefix_append_right_inj _).2 h'.planned
  case complete =>
    intro hgo
    rw [commands_append, h.complete rfl, h'.complete hgo]
  case prompt =>
    intro call hcall
    by_cases hnil : calls' = []
    · rw [hnil, List.append_nil] at hcall
      exact hall call (List.dropLast_subset _ hcall)
    rw [List.dropLast_append_of_ne_nil hnil] at hcall
    rcases List.mem_append.1 hcall with hcall | hcall
    · exact hall call hcall
    · exact h'.prompt call hcall
  case accepted =>
    intro hgo call hcall
    rcases List.mem_append.1 hcall with hcall | hcall
    · exact hall call hcall
    · exact h'.accepted hgo call hcall
  case uploads => rw [uploads_append, h.uploads, h'.uploads, List.append_nil]

/-- After a call that is not accepted there is none. -/
theorem last_of_not_accepted (h : Keeps accepts plan goesOn calls) {before after : List Call}
    {call : Call} (heq : calls = before ++ call :: after) (hnot : accepts call = false) :
    after = [] := by
  by_cases hafter : after = []
  · exact hafter
  have hmem : call ∈ calls.dropLast := by
    rw [heq, List.dropLast_append_of_ne_nil (by simp), List.dropLast_cons_of_ne_nil hafter]
    simp
  rw [h.prompt call hmem] at hnot
  cases hnot

end Keeps

end CoverageRun
