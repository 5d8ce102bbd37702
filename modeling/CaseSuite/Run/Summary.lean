import CaseSuite.Failure
import CaseSuite.Number.Digits

/-!
# Summaries

The outcomes of the cases of a suite in the order in which they ran.
-/

namespace CaseSuite

/-- A case that ran. -/
structure CaseRun where
  name : String
  outcome : Outcome

/-- The case ended well. -/
def CaseRun.passed (c : CaseRun) : Bool := c.outcome.isOk

/-- The cases that ran. -/
structure Summary where
  cases : List CaseRun

namespace Summary

/-- The cases that failed. -/
def failures (s : Summary) : List CaseRun := s.cases.filter fun c => !c.passed

/-- How many cases ended well. -/
def passed (s : Summary) : Nat := s.cases.countP CaseRun.passed

/-- Every case ended well. -/
def success (s : Summary) : Bool := s.cases.all CaseRun.passed

/-- The line of a case that failed. -/
def failureLine (c : CaseRun) : String :=
  match c.outcome with
  | .ok () => ""
  | .error failure => "FAIL: " ++ c.name ++ ": " ++ failure.text ++ "\n"

/-- The text of a summary. -/
def text (s : Summary) : String :=
  let count := s.cases.length
  let failed := count - s.passed
  let plural := if count = 1 then "" else "s"
  let verdict := if failed = 0 then "OK" else "FAILED (failures=" ++ Nat.repr failed ++ ")"
  String.join (s.failures.map failureLine) ++ "Ran " ++ Nat.repr count ++ " test" ++ plural ++
    "\n" ++ verdict

end Summary

end CaseSuite
