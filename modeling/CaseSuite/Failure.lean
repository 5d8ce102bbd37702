import CaseSuite.Value.Basic

/-!
# How a case fails

A case ends well or with a failure: an assertion that does not hold, an error of the running system
or a crash. Each cause has one text.
-/

namespace CaseSuite

/-- What a database reports besides an answer. -/
inductive Diagnostic where
  | warning (message : String)
  | error (message : String)
  deriving DecidableEq, Repr

/-- The text of a diagnostic. -/
def Diagnostic.text : Diagnostic → String
  | warning message => "warning: " ++ message
  | error message => "error: " ++ message

/-- An error of the running system. -/
inductive RunError where
  | connect (terminal : String) (source : Diagnostic)
  | spawn (terminal message : String)
  | missingResult (terminal name : String)
  | resultNotReady (terminal name : String)
  | notAContainer (typeName : String)
  deriving DecidableEq, Repr

/-- The text of an error. -/
def RunError.text : RunError → String
  | connect terminal source => "terminal '" ++ terminal ++ "' could not connect: " ++ source.text
  | spawn terminal message =>
      "could not start worker for terminal '" ++ terminal ++ "': " ++ message
  | missingResult terminal name =>
      "terminal '" ++ terminal ++ "' has no result set named '" ++ name ++ "'"
  | resultNotReady terminal name =>
      "result set '" ++ name ++ "' on terminal '" ++ terminal ++ "' is not ready"
  | notAContainer typeName => "a value of type " ++ typeName ++ " is not a container"

/-- Why a case failed. -/
inductive Failure where
  | assertion (message : String)
  | run (e : RunError)
  | crash (message : String)
  deriving DecidableEq, Repr

/-- The text of a failure. -/
def Failure.text : Failure → String
  | assertion message => "assertion failed: " ++ message
  | run e => e.text
  | crash message => "panicked: " ++ message

/-- How a case ended. -/
abbrev Outcome := Except Failure Unit

/-- What ends a body that runs under guard: it returns, or it crashes with or without a message. -/
inductive Ending where
  | returned (outcome : Outcome)
  | crashed (message : Option String)

/-- The outcome of a body under guard. -/
def guarded : Ending → Outcome
  | .returned outcome => outcome
  | .crashed message => .error (.crash (message.getD "unknown panic"))

end CaseSuite
