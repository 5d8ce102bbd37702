import CaseSuite.CaseFile.Basic

/-!
# A sample case file

One case for each way in which a case can end: it passes, a check fails, a check cannot be made, and
a terminal is lost.
-/

namespace CaseSuite.Sample

/-- A query that is waited for. -/
def ask (target : Target) (query : String) : Request := ⟨target, .sync, query, false⟩

/-- The case that passes. -/
def passing : TestCase where
  name := "Passing"
  line := 4
  statements :=
    [.declare ["a", "b"],
     .request (ask (.named "a") "INSERT INTO t VALUES (1)"),
     .request ⟨.named "b", .async, "UPDATE t SET id = 2", false⟩,
     .assign "rows" (.request ⟨.implicit, .sync, "SELECT id FROM t", true⟩),
     .check .textEqual (.variable "rows") (.text "[[1]]"),
     .check .equal (.request (ask (.named "a") "SELECT 1")) (.number "0")]

/-- The case with a check that fails. -/
def failing : TestCase where
  name := "FailsAssertion"
  line := 13
  statements :=
    [.declare ["a"],
     .check .equal (.request (ask (.named "a") "DELETE FROM missing")) (.number "0"),
     .request (ask .implicit "never runs")]

/-- The case with a check that cannot be made. -/
def erring : TestCase where
  name := "RuntimeError"
  line := 19
  statements := [.check .member (.request (ask .implicit "SELECT 1")) (.number "1")]

/-- The case that loses a terminal. -/
def crashing : TestCase where
  name := "CrashedTerminal"
  line := 23
  statements :=
    [.declare ["a"],
     .request (ask (.named "a") "SELECT boom"),
     .check .equal (.request (ask (.named "a") "q")) (.number "0")]

/-- The whole file. -/
def exitPaths : CaseFile where
  config := "host=mem;db=cases"
  cases := [passing, failing, erring, crashing]

end CaseSuite.Sample
