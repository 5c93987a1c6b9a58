/-
What work comes to: a value or the reason it stopped, and the world it leaves in either case. Each
kind of work has one equation, and whatever is put together of such work is read off them. Which
reasons work can stop for is settled the same way, from its parts.
-/
import CoverageRun.Host

namespace CoverageRun

variable {S α β : Type}

/-! ## Outcomes -/

/-- What work on a state comes to, and the state it leaves. -/
def outcome (work : ExceptT Halt (StateM S) α) (s : S) : Except Halt α × S :=
  StateT.run (ExceptT.run work) s

@[simp]
theorem outcome_pure (a : α) (s : S) :
    outcome (pure a : ExceptT Halt (StateM S) α) s = (.ok a, s) := rfl

@[simp]
theorem outcome_throw (halt : Halt) (s : S) :
    outcome (throw halt : ExceptT Halt (StateM S) α) s = (.error halt, s) := rfl

@[simp]
theorem outcome_get (s : S) : outcome (get : ExceptT Halt (StateM S) S) s = (.ok s, s) := rfl

@[simp]
theorem outcome_set (s s' : S) :
    outcome (set s' : ExceptT Halt (StateM S) PUnit) s = (.ok ⟨⟩, s') := rfl

@[simp]
theorem outcome_modify (f : S → S) (s : S) :
    outcome (modify f : ExceptT Halt (StateM S) PUnit) s = (.ok ⟨⟩, f s) := rfl

theorem run_bind {ε : Type} (work : ExceptT ε (StateM S) α) (f : α → ExceptT ε (StateM S) β) (s : S) :
    StateT.run (ExceptT.run (work >>= f)) s =
      match StateT.run (ExceptT.run work) s with
      | (.ok a, s') => StateT.run (ExceptT.run (f a)) s'
      | (.error e, s') => (.error e, s') := by
  show StateT.run (ExceptT.run work >>= ExceptT.bindCont f) s = _
  rw [StateT.run_bind]
  show (match StateT.run (ExceptT.run work) s with | (e, s') => StateT.run (ExceptT.bindCont f e) s') = _
  rcases StateT.run (ExceptT.run work) s with ⟨_ | a, s'⟩ <;> rfl

/-- Work that goes on where other work has come to a value. -/
theorem outcome_bind (work : ExceptT Halt (StateM S) α) (f : α → ExceptT Halt (StateM S) β) (s : S) :
    outcome (work >>= f) s =
      match outcome work s with
      | (.ok a, s') => outcome (f a) s'
      | (.error halt, s') => (.error halt, s') := by
  unfold outcome
  rw [run_bind]
  rcases StateT.run (ExceptT.run work) s with ⟨_ | a, s'⟩ <;> rfl

/-- Work that is stepped in for where it stops. -/
theorem outcome_tryCatch (work : ExceptT Halt (StateM S) α)
    (handler : Halt → ExceptT Halt (StateM S) α) (s : S) :
    outcome (tryCatch work handler) s =
      match outcome work s with
      | (.ok a, s') => (.ok a, s')
      | (.error halt, s') => outcome (handler halt) s' := by
  unfold outcome
  rw [ExceptT.run_tryCatch, StateT.run_bind]
  show (match StateT.run (ExceptT.run work) s with | (e, s') => StateT.run _ s') = _
  rcases StateT.run (ExceptT.run work) s with ⟨_ | a, s'⟩ <;> rfl

theorem outcome_bind_eq_error {work : ExceptT Halt (StateM S) α}
    {f : α → ExceptT Halt (StateM S) β} {s s' : S} {halt : Halt} :
    outcome (work >>= f) s = (.error halt, s') ↔
      outcome work s = (.error halt, s') ∨
      ∃ a s₁, outcome work s = (.ok a, s₁) ∧ outcome (f a) s₁ = (.error halt, s') := by
  rw [outcome_bind]
  rcases outcome work s with ⟨_ | a, s₁⟩ <;> simp [and_assoc]

theorem outcome_bind_eq_ok {work : ExceptT Halt (StateM S) α} {f : α → ExceptT Halt (StateM S) β}
    {s s' : S} {b : β} :
    outcome (work >>= f) s = (.ok b, s') ↔
      ∃ a s₁, outcome work s = (.ok a, s₁) ∧ outcome (f a) s₁ = (.ok b, s') := by
  rw [outcome_bind]
  rcases outcome work s with ⟨_ | a, s₁⟩ <;> simp [and_assoc]

/-- The failure that work stopped for, if it stopped for one. -/
def failure? : Except Halt α → Option Failure
  | .error (.failure f) => some f
  | _ => none

theorem outcome_of_failure? {work : ExceptT Halt (StateM S) α} {s : S} {f : Failure}
    (h : failure? (outcome work s).1 = some f) :
    outcome work s = (.error (.failure f), (outcome work s).2) := by
  rcases ho : outcome work s with ⟨(f' | _ | _) | a, s'⟩ <;> rw [ho] at h <;> cases h
  rfl

/-! ## Work on the world -/

theorem mapError_ok {ε ε' : Type} (f : ε → ε') (a : α) :
    (Except.ok a : Except ε α).mapError f = .ok a := rfl

theorem mapError_error {ε ε' : Type} (f : ε → ε') (e : ε) :
    (Except.error e : Except ε α).mapError f = .error (f e) := rfl

/-- What an answer comes to. -/
def Answer.toExcept : Answer α → Except Halt α
  | .completed a => .ok a
  | .failed f => .error (.failure f)
  | .unending => .error (.unending none)

namespace Action

variable {σ : Type}

@[simp]
theorem outcome_fail (f : Failure) (w : World σ) :
    outcome (fail f : Action σ α) w = (.error (.failure f), w) := rfl

theorem outcome_ofExcept {ε : Type} (failure : ε → Failure) (r : Except ε α) (w : World σ) :
    outcome (ofExcept failure r) w = (r.mapError fun e => .failure (failure e), w) := by
  cases r <;> rfl

@[simp]
theorem outcome_tree (w : World σ) : outcome tree w = (.ok w.tree, w) := rfl

@[simp]
theorem outcome_setTree (t : Files.Tree) (w : World σ) :
    outcome (setTree t) w = (.ok (), { w with tree := t }) := rfl

theorem outcome_ofAnswer (a : Answer α) (w : World σ) :
    outcome (ofAnswer a) w = (a.toExcept, w) := by
  cases a <;> rfl

/-- A command is issued once, whatever it comes to. -/
theorem outcome_issue (h : Host σ) (c : Command) (w : World σ) :
    outcome (issue h c) w =
      ((h.run c w.tree w.host).1.toExcept,
        ⟨(h.run c w.tree w.host).2.1, (h.run c w.tree w.host).2.2, w.issued ++ [c]⟩) :=
  outcome_ofAnswer _ _

theorem outcome_upload (h : Host σ) (r : Coverage.Report) (credential : Credential)
    (origin : Origin) (w : World σ) :
    outcome (upload h r credential origin) w =
      ((h.publish r credential origin w.host).1.toExcept,
        { w with host := (h.publish r credential origin w.host).2 }) :=
  outcome_ofAnswer _ _

theorem outcome_changeFiles (change : Files.Tree → Except Files.Fault Files.Tree) (w : World σ) :
    outcome (changeFiles change) w =
      match change w.tree with
      | .ok t => (.ok (), { w with tree := t })
      | .error e => (.error (.failure (.ofFiles e)), w) := by
  unfold changeFiles
  rw [outcome_bind, outcome_tree]
  simp only [outcome_bind, outcome_ofExcept]
  cases change w.tree <;> rfl

theorem outcome_await (h : Host σ) (op : Files.Operation) (w : World σ) :
    outcome (await h op) w =
      match h.overtakes op w.tree w.host with
      | none => (.ok (), w)
      | some landing => (.error (.unending (some ⟨op, landing⟩)), w) := by
  unfold await
  rw [outcome_bind, outcome_get]
  simp only
  cases h.overtakes op w.tree w.host <;> rfl

/-- A file operation changes the tree or fails, unless all time is up before it has ended. -/
theorem outcome_perform (h : Host σ) (op : Files.Operation) (w : World σ) :
    outcome (perform h op) w =
      match h.overtakes op w.tree w.host with
      | some landing => (.error (.unending (some ⟨op, landing⟩)), w)
      | none =>
        match op.apply w.tree with
        | .ok t => (.ok (), { w with tree := t })
        | .error e => (.error (.failure (.ofFiles e)), w) := by
  unfold perform
  rw [outcome_bind, outcome_await]
  cases h.overtakes op w.tree w.host with
  | none => exact outcome_changeFiles op.apply w
  | some landing => rfl

/-- A file operation that is done and waited for. -/
theorem perform_eq_ok {h : Host σ} {op : Files.Operation} {w w' : World σ} {u : Unit}
    (ho : outcome (perform h op) w = (.ok u, w')) :
    ∃ t, op.apply w.tree = .ok t ∧ w' = { w with tree := t } := by
  rw [outcome_perform] at ho
  split at ho
  · cases ho
  · split at ho <;> cases ho
    exact ⟨_, by assumption, rfl⟩

end Action

/-! ## Reasons to stop -/

/-- Work that stops for allowed reasons only. -/
def Stops (allowed : Halt → Prop) (work : ExceptT Halt (StateM S) α) : Prop :=
  ∀ s halt s', outcome work s = (.error halt, s') → allowed halt

namespace Stops

variable {allowed : Halt → Prop}

theorem pure (a : α) : Stops allowed (pure a : ExceptT Halt (StateM S) α) := by
  intro s halt s' h
  cases h

theorem throw {halt : Halt} (hh : allowed halt) :
    Stops allowed (throw halt : ExceptT Halt (StateM S) α) := by
  intro s halt' s' h
  cases h
  exact hh

theorem bind {work : ExceptT Halt (StateM S) α} {f : α → ExceptT Halt (StateM S) β}
    (hw : Stops allowed work) (hf : ∀ a, Stops allowed (f a)) : Stops allowed (work >>= f) := by
  intro s halt s' h
  rcases outcome_bind_eq_error.1 h with h | ⟨a, s₁, -, h⟩
  · exact hw s halt s' h
  · exact hf a s₁ halt s' h

theorem tryCatch {work : ExceptT Halt (StateM S) α} {handler : Halt → ExceptT Halt (StateM S) α}
    (hw : Stops allowed work) (hh : ∀ halt, allowed halt → Stops allowed (handler halt)) :
    Stops allowed (tryCatch work handler) := by
  intro s halt s' h
  rw [outcome_tryCatch] at h
  rcases ho : outcome work s with ⟨halt₁ | a, s₁⟩ <;> rw [ho] at h
  · exact hh halt₁ (hw s halt₁ s₁ ho) s₁ halt s' h
  · cases h

end Stops

/-- Failures that say something is wrong with the configuration. -/
def Failure.isMisconfiguration : Failure → Bool
  | .config _ => true
  | .aggregation (.invalidGlob _ _) => true
  | _ => false

/-- A host that comes to an answer, whatever it is asked, and where file operations come to an end. -/
structure Host.Answers {σ : Type} (h : Host σ) : Prop where
  run : ∀ c t s, (h.run c t s).1 ≠ .unending
  publish : ∀ r credential origin s, (h.publish r credential origin s).1 ≠ .unending
  overtakes : ∀ op t s, h.overtakes op t s = none

/-- A host that answers something with a failure. -/
def Host.Fails {σ : Type} (h : Host σ) (f : Failure) : Prop :=
  (∃ c t s, (h.run c t s).1 = .failed f) ∨
    ∃ r credential origin s, (h.publish r credential origin s).1 = .failed f

/-- Failures that are not about the configuration are allowed, those the host answers with, and not
coming to an end where the host may not answer. -/
structure Admits {σ : Type} (h : Host σ) (allowed : Halt → Prop) : Prop where
  own : ∀ f, f.isMisconfiguration = false → allowed (.failure f)
  host : ∀ f, h.Fails f → allowed (.failure f)
  unending : h.Answers ∨ ∀ late, allowed (.unending late)

namespace Stops

variable {σ : Type} {h : Host σ} {allowed : Halt → Prop}

theorem fail (hh : Admits h allowed) {f : Failure} (hf : f.isMisconfiguration = false) :
    Stops allowed (Action.fail f : Action σ α) :=
  .throw (hh.own f hf)

theorem ofExcept {ε : Type} {failure : ε → Failure} {r : Except ε α}
    (hr : ∀ e, r = .error e → allowed (.failure (failure e))) :
    Stops allowed (Action.ofExcept failure r : Action σ α) := by
  cases r with
  | ok a => exact .pure a
  | error e => exact .throw (hr e rfl)

theorem tree : Stops allowed (Action.tree : Action σ Files.Tree) := by
  intro w halt w' h
  cases h

theorem setTree (t : Files.Tree) : Stops allowed (Action.setTree t : Action σ Unit) := by
  intro w halt w' h
  cases h

theorem changeFiles (hfiles : ∀ fault, allowed (.failure (.ofFiles fault)))
    (change : Files.Tree → Except Files.Fault Files.Tree) :
    Stops allowed (Action.changeFiles change : Action σ Unit) :=
  .bind .tree fun _ => .bind (.ofExcept fun _ _ => hfiles _) fun t => .setTree t

/-- A command stops the work for what the host answers it with. -/
theorem issue_of_answers {c : Command}
    (hfailed : ∀ t s f, (h.run c t s).1 = .failed f → allowed (.failure f))
    (hunending : (∀ t s, (h.run c t s).1 ≠ .unending) ∨ allowed (.unending none)) :
    Stops allowed (Action.issue h c) := by
  intro w halt w' ho
  rw [Action.outcome_issue] at ho
  have hanswer := (Prod.mk.inj ho).1
  cases ha : (h.run c w.tree w.host).1 with
  | completed out => rw [ha] at hanswer; cases hanswer
  | failed f => rw [ha] at hanswer; cases hanswer; exact hfailed _ _ f ha
  | unending =>
    rw [ha] at hanswer
    cases hanswer
    exact hunending.resolve_left fun hends => hends _ _ ha

theorem issue (hh : Admits h allowed) (c : Command) : Stops allowed (Action.issue h c) :=
  issue_of_answers (fun t s f hf => hh.host f (.inl ⟨c, t, s, hf⟩))
    (hh.unending.imp (fun hends => hends.run c) fun hends => hends none)

theorem upload (hh : Admits h allowed) (r : Coverage.Report) (credential : Credential)
    (origin : Origin) : Stops allowed (Action.upload h r credential origin) := by
  intro w halt w' ho
  rw [Action.outcome_upload] at ho
  have hanswer := (Prod.mk.inj ho).1
  cases ha : (h.publish r credential origin w.host).1 with
  | completed out => rw [ha] at hanswer; cases hanswer
  | failed f => rw [ha] at hanswer; cases hanswer; exact hh.host f (.inr ⟨_, _, _, _, ha⟩)
  | unending =>
    rw [ha] at hanswer
    cases hanswer
    exact hh.unending.resolve_left (fun hends => hends.publish _ _ _ _ ha) none

/-- A file operation is waited for in vain where all time is up before. -/
theorem await_of_overtakes {op : Files.Operation}
    (hlate : ∀ t s landing, h.overtakes op t s = some landing →
      allowed (.unending (some ⟨op, landing⟩))) :
    Stops allowed (Action.await h op) := by
  intro w halt w' ho
  rw [Action.outcome_await] at ho
  split at ho
  · cases ho
  · rename_i landing hlanding
    cases ho
    exact hlate _ _ landing hlanding

end Stops

theorem Admits.late {σ : Type} {h : Host σ} {allowed : Halt → Prop} (hh : Admits h allowed)
    {op : Files.Operation} {t : Files.Tree} {s : σ} {landing : Landing}
    (hlate : h.overtakes op t s = some landing) : allowed (.unending (some ⟨op, landing⟩)) := by
  rcases hh.unending with hends | hall
  · rw [hends.overtakes] at hlate
    cases hlate
  · exact hall _

namespace Stops

variable {σ : Type} {h : Host σ} {allowed : Halt → Prop}

theorem await (hh : Admits h allowed) (op : Files.Operation) : Stops allowed (Action.await h op) :=
  await_of_overtakes fun _ _ _ hlate => hh.late hlate

end Stops

end CoverageRun
