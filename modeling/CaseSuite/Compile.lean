import CaseSuite.CaseFile.Parse
import CaseSuite.Listing.Program
import CaseSuite.Plan.Planner
import CaseSuite.Token.Scan

/-!
# Compiling a case file

From the text of a case file to the text of the generated module.
-/

namespace CaseSuite

/-- Why a text does not compile. -/
inductive CompileError where
  | scan (e : ScanError)
  | parse (e : ParseError)
  | plan (e : PlanError)
  | name (e : Listing.NameError)
  deriving DecidableEq, Repr

/-- The text of the error. -/
def CompileError.message : CompileError → String
  | scan e => e.message
  | parse e => e.message
  | plan e => e.message
  | name e => e.message

/-- Parse a text. -/
def CaseFile.ofText (text : String) : Except CompileError CaseFile :=
  match Token.scan text with
  | .error e => .error (.scan e)
  | .ok tokens =>
      match CaseFile.parse tokens with
      | .error e => .error (.parse e)
      | .ok file => .ok file

/-- The plans of a text. -/
def Suite.ofText (text : String) : Except CompileError Suite :=
  match CaseFile.ofText text with
  | .error e => .error e
  | .ok file =>
      match file.suite with
      | .error e => .error (.plan e)
      | .ok suite => .ok suite

/-- Compile a text. -/
def compile (text : String) : Except CompileError String :=
  match Suite.ofText text with
  | .error e => .error e
  | .ok suite =>
      match suite.program.listing with
      | .error e => .error (.name e)
      | .ok listing => .ok listing

end CaseSuite
