/-
How much a program tells of its work.
-/

namespace CoverageRun

/-- A level of telling: the work in outline, or in detail. -/
inductive LogLevel where
  | info
  | debug
  deriving DecidableEq, Repr

namespace LogLevel

/-- The level of a program that was asked to be verbose, or was not. -/
def ofVerbose (verbose : Bool) : LogLevel := if verbose then .debug else .info

/-- The name of a level. -/
def name : LogLevel → String
  | .info => "INFO"
  | .debug => "DEBUG"

end LogLevel

end CoverageRun
