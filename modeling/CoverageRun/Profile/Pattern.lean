/-
Patterns for the files that profiles are written to: each process and module is to have a file of
its own, of the extension profiles have.
-/
import CoverageRun.Text.Split

namespace CoverageRun.Profile

/-- The extension of profiles. -/
def extension : String := "profraw"

/-- What stands for the process in a pattern. -/
def processMark : String := "%p"

/-- What stands for the module in a pattern. -/
def moduleMark : String := "%m"

/-- What can be wrong with a pattern. -/
inductive PatternFault where
  | noProcess (pattern : String)
  | noModule (pattern : String)
  | otherExtension (pattern : String)
  deriving DecidableEq, Repr

/-- The wording of a fault. -/
def PatternFault.message : PatternFault → String
  | .noProcess pattern => s!"profile file pattern `{pattern}` must contain {processMark}"
  | .noModule pattern => s!"profile file pattern `{pattern}` must contain {moduleMark}"
  | .otherExtension pattern => s!"profile file pattern `{pattern}` must end in .{extension}"

/-- Checks that a pattern has both marks and the extension. -/
def validatePattern (pattern : String) : Except PatternFault Unit :=
  let cs := pattern.toList
  if Text.contains processMark.toList cs = false then .error (.noProcess pattern)
  else if Text.contains moduleMark.toList cs = false then .error (.noModule pattern)
  else if Text.endsWith ('.' :: extension.toList) cs = false then .error (.otherExtension pattern)
  else .ok ()

end CoverageRun.Profile
