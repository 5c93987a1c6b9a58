/-
What a host that runs commands on the tree fails for. A command that cannot be begun there, and one
that does not end in its time, is a failure of the system; only a command without a program to run is
at fault itself. So what this host runs never makes a configuration wrong.
-/
import CoverageRun.Proofs.Run.ExitCodes
import CoverageRun.Shell.Host

namespace CoverageRun.Shell

variable {environment : Environment} {limit : Option Nat} {c : Command} {t : Files.Tree} {f : Failure}
  {τ : Type} {publish : Coverage.Report → Credential → Origin → τ → Answer Upload.Receipt × τ}

theorem isSystem_ofFiles (fault : Files.Fault) : (Failure.ofFiles fault).IsSystem :=
  .inr ⟨_, rfl⟩

theorem isSystem_of_mapError {α : Type} {x : Except Files.Fault α}
    (h : x.mapError Failure.ofFiles = .error f) : f.IsSystem := by
  cases x with
  | ok a => cases h
  | error fault =>
    cases h
    exact isSystem_ofFiles fault

theorem bind_eq_error {ε α β : Type} {x : Except ε α} {next : α → Except ε β} {e : ε}
    (h : (x >>= next) = .error e) : x = .error e ∨ ∃ a, next a = .error e := by
  cases x with
  | error e' => exact .inl (by cases h; rfl)
  | ok a => exact .inr ⟨a, h⟩

/-- What keeps a command from beginning is of the system. -/
theorem isSystem_of_begin? {word : String} (h : begin? environment limit word c t = .error f) :
    f.IsSystem := by
  unfold begin? at h
  dsimp only at h
  split at h
  · cases h
    exact .inr ⟨_, rfl⟩
  rcases bind_eq_error h with henter | ⟨inside, h⟩
  · exact isSystem_of_mapError henter
  rcases bind_eq_error h with hfind | ⟨found, h⟩
  · exact isSystem_of_mapError hfind
  split at h
  · split at h
    · rcases bind_eq_error h with hinterpreter | ⟨_, h⟩
      · exact isSystem_of_mapError hinterpreter
      · cases h
    · cases h
      exact .inr ⟨_, rfl⟩
  · cases h

/-- What is made of a command that has begun is no failure but that of its time. -/
theorem isSystem_of_answerOf {result : Except Stop Unit} {s : Session}
    (h : answerOf c limit result s = .failed f) : f.IsSystem := by
  unfold answerOf at h
  dsimp only at h
  split at h
  · unfold overdueAnswer at h
    split at h
    · split at h
      · cases h
        exact .inl ⟨_, _, rfl⟩
      · cases h
    · cases h
  · cases h

theorem isSystem_of_execute (hwords : c.words ≠ [])
    (h : (execute environment limit c t).1 = .failed f) : f.IsSystem := by
  unfold execute at h
  split at h
  · exact absurd ‹_› hwords
  · split at h
    · rename_i hbegin
      cases h
      exact isSystem_of_begin? hbegin
    · exact isSystem_of_answerOf h

/-- A host on the tree fails for the system, for a command without words, or as its uploads do. -/
theorem fails_host (h : (host environment publish).Fails f) :
    f.IsSystem ∨ (∃ name : String, f = .config s!"command {name} is empty") ∨
      ∃ report credential origin s, (publish report credential origin s).1 = .failed f := by
  rcases h with ⟨c, t, s, hrun⟩ | ⟨report, credential, origin, s, hpublish⟩
  · by_cases hwords : c.words = []
    · simp only [host, execute, hwords] at hrun
      cases hrun
      exact .inr (.inl ⟨c.name, rfl⟩)
    · exact .inl (isSystem_of_execute hwords hrun)
  · exact .inr (.inr ⟨report, credential, origin, s.transport, hpublish⟩)

/-- Where uploads are only refused, no failure of this host is one of making the report. -/
theorem not_fails_aggregation {cause : AggregationFailure}
    (hpublish : ∀ report credential origin s f,
      (publish report credential origin s).1 = .failed f → f.IsRefusal) :
    ¬ (host environment publish).Fails (.aggregation cause) := by
  intro h
  rcases fails_host h with (⟨_, _, h⟩ | ⟨_, h⟩) | ⟨_, h⟩ | ⟨report, credential, origin, s, h⟩
  · cases h
  · cases h
  · cases h
  · rcases hpublish report credential origin s _ h with ⟨_, h⟩ | ⟨_, h⟩ <;> cases h

end CoverageRun.Shell
