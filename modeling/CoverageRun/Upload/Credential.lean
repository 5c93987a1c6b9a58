/-
The secret token an upload is signed with. It shows itself only to who asks for it by name; every
other way of printing it gives stars.
-/
import CoverageRun.Failure
import CoverageRun.Text.Blank

namespace CoverageRun

/-- A token that is not blank. -/
structure Credential where
  token : String
  notBlank : Text.isBlankText token = false

namespace Credential

/-- A credential made of a token, unless that is blank. -/
def ofToken (token : String) : Except Failure Credential :=
  if h : Text.isBlankText token = false then .ok ⟨token, h⟩
  else .error (.config "publish token is empty")

/-- The credential an environment variable holds. -/
def ofVariable (var : String → Option String) (name : String) : Except Failure Credential :=
  match var name with
  | some token => ofToken token
  | none => .error (.config s!"environment variable {name} is not set")

/-- The token itself. -/
def expose (c : Credential) : String := c.token

/-- The credential in a message. -/
def display (_ : Credential) : String := "***"

/-- The credential in a trace. -/
def debug (_ : Credential) : String := "PublishCredential(***)"

end Credential

end CoverageRun
