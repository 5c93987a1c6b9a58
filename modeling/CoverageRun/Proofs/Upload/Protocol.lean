/-
The upload against any server. What is sent is kept by a recording transport: one request for a
place, and the report after it if the answer grants one. The credential shows in one header of the
first request and nowhere else.
-/
import CoverageRun.Proofs.Host.Action
import CoverageRun.Proofs.Text.Lines
import CoverageRun.Upload.Protocol

namespace CoverageRun.Upload

open Text

variable {τ α β : Type}

/-! ## Exchanges -/

/-- What an exchange comes to, and the state it leaves. -/
def course (work : Exchange τ α) (s : τ) : Except Fault α × τ := StateT.run (ExceptT.run work) s

@[simp]
theorem course_pure (a : α) (s : τ) : course (pure a : Exchange τ α) s = (.ok a, s) := rfl

@[simp]
theorem course_throw (fault : Fault) (s : τ) :
    course (throw fault : Exchange τ α) s = (.error fault, s) := rfl

/-- The transport, keeping the requests it is given. -/
def Transport.recorded (t : Transport τ) : Transport (τ × List Request) where
  send r s :=
    let (answer, state) := t.send r s.1
    (answer, state, s.2 ++ [r])

variable {t : Transport τ} {url : Url} {credential : Credential} {report : Coverage.Report}
  {answer : Response} {s s₁ : τ}

variable {settings : Settings} {origin : Origin}

/-- A request without a header. -/
def Request.without (r : Request) (header : String × String) : Request :=
  { r with headers := r.headers.filter (· ≠ header) }

end CoverageRun.Upload
