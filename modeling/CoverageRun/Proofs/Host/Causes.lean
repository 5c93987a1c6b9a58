/-
Why work stops, as its calls tell. Work that stops for nothing but what it asks of a host stops for
its last call: the command of that call has run and not passed, or the host has failed, or it does
not come to an end. This is settled from the parts of the work.
-/
import CoverageRun.Proofs.Host.Calls

namespace CoverageRun

variable {σ α β : Type}

theorem Call.StopsFor.mono {h : Host σ} {kind kind' : Failure → Prop} {call : Call} {halt : Halt}
    (hstop : call.StopsFor h kind halt) (hkind : ∀ f, kind f → kind' f) :
    call.StopsFor h kind' halt := by
  cases hstop with
  | unpassed hp hf => exact .unpassed hp (hkind _ hf)
  | failed hf => exact .failed hf
  | unending => exact .unending

/-- Work that stops has stopped for its last call, one that it may not go on after. -/
def StopsAtLast (h : Host σ) (accepts : Call → Bool) (kind : Failure → Prop) (r : Except Halt α)
    (calls : List Call) : Prop :=
  ∀ halt, r = .error halt →
    ∃ before call, calls = before ++ [call] ∧ accepts call = false ∧ call.StopsFor h kind halt

/-- Where a command has run and not passed that must, the work has stopped for a failure of its kind. -/
theorem StopsAtLast.exists_failure {h : Host σ} {accepts : Call → Bool} {kind : Failure → Prop}
    {r : Except Halt α} {calls : List Call} (hstops : StopsAtLast h accepts kind r calls)
    {plan : List Command} (hkeeps : Keeps accepts plan r.isOk calls) {c : Command} {out : Completion}
    (hcall : .command c (.completed out) ∈ calls)
    (hnot : accepts (.command c (.completed out)) = false) : ∃ f, r = .error (.failure f) ∧ kind f := by
  obtain ⟨before, after, heq⟩ := List.append_of_mem hcall
  obtain rfl := hkeeps.last_of_not_accepted heq hnot
  cases r with
  | ok a =>
    rw [hkeeps.accepted rfl _ hcall] at hnot
    cases hnot
  | error halt =>
    -- the call that it stops for is the last one too
    obtain ⟨before', call, heq', -, hstop⟩ := hstops halt rfl
    obtain ⟨rfl⟩ := List.append_inj_right' (heq.symm.trans heq') rfl
    cases hstop with
    | unpassed _ hkind => exact ⟨_, rfl, hkind⟩

/-- Work that stops for its last call, if it stops. -/
abbrev Traced (h : Host σ) (accepts : Call → Bool) (kind : Failure → Prop)
    (work' : Action (σ × List Call) α) (work : Action σ α) : Prop :=
  Records work' work (StopsAtLast h accepts kind)

namespace Traced

variable {accepts : Call → Bool} {kind : Failure → Prop} {h : Host σ} {c : Command}

theorem mono {kind' : Failure → Prop} {work' : Action (σ × List Call) α} {work : Action σ α}
    (hwork : Traced h accepts kind work' work) (hkind : ∀ f, kind f → kind' f) :
    Traced h accepts kind' work' work := by
  refine Records.mono hwork fun r calls hstops halt heq => ?_
  obtain ⟨before, call, hcalls, hnot, hstop⟩ := hstops halt heq
  exact ⟨before, call, hcalls, hnot, hstop.mono hkind⟩

theorem pure (a : α) :
    Traced h accepts kind (pure a : Action (σ × List Call) α) (pure a : Action σ α) := by
  refine (Records.pure a).mono ?_
  rintro r calls ⟨-, rfl⟩ halt heq
  cases heq

theorem bind {work' : Action (σ × List Call) α} {work : Action σ α}
    {f' : α → Action (σ × List Call) β} {f : α → Action σ β} (hwork : Traced h accepts kind work' work)
    (hf : ∀ a, Traced h accepts kind (f' a) (f a)) :
    Traced h accepts kind (work' >>= f') (work >>= f) := by
  refine (Records.bind hwork hf).mono ?_
  rintro r calls (⟨halt, rfl, hstop⟩ | ⟨a, first, rest, -, hrest, rfl⟩) halt' heq
  · cases heq
    exact hstop halt rfl
  · obtain ⟨before, call, rfl, hcall⟩ := hrest halt' heq
    exact ⟨first ++ before, call, (List.append_assoc _ _ _).symm, hcall⟩

/-- A command is issued that must pass, and nothing more is asked for. -/
theorem issuePassing {good' : Completion → Action (σ × List Call) α} {good : Completion → Action σ α}
    {bad : Completion → Failure}
    (hgood : ∀ out, Records (good' out) (good out) fun r calls => calls = [] ∧ ∃ a, r = .ok a)
    (hbad : ∀ out, kind (bad out))
    (haccepts : ∀ answer : Answer Completion, answer.passes = false →
      accepts (.command c answer) = false) :
    Traced h accepts kind
      (do let out ← Action.issue h.recorded c; if out.passed then good' out else Action.fail (bad out))
      (do let out ← Action.issue h c; if out.passed then good out else Action.fail (bad out)) := by
  refine (Records.issuePassing fun out => (hgood out).mono fun r calls ⟨hnil, a, hr⟩ =>
    (⟨hnil, a, hr, trivial⟩ : calls = [] ∧ ∃ a, r = .ok a ∧ True)).mono ?_
  rintro r calls ⟨answer, rfl, ⟨out, a, rfl, hp, rfl, -⟩ | ⟨hp, halt, rfl, hstop⟩⟩ halt' heq
  · cases heq
  · cases heq
    refine ⟨[], _, rfl, haccepts answer hp, hstop.mono ?_⟩
    rintro f ⟨out, rfl⟩
    exact hbad out

end Traced

end CoverageRun
