import CaseSuite.Relation

/-!
# Case files

A case file holds a configuration text and test cases. A case is a list of statements that declare
terminals, send requests to them, name values and check relations between values.
-/

namespace CaseSuite

/-- The terminal a request goes to. -/
inductive Target where
  /-- The terminal that every case has without declaring it. -/
  | implicit
  | named (name : String)
  deriving DecidableEq, Repr

/-- Whether a case waits for a request to be finished. -/
inductive Timing where
  | sync
  | async
  deriving DecidableEq, Repr

/-- A query sent to a terminal. -/
structure Request where
  target : Target
  timing : Timing
  query : String
  /-- The rows of the query are fetched and kept. -/
  fetch : Bool
  deriving DecidableEq, Repr

/-- What denotes a value. A number is kept as it was written. -/
inductive Expr where
  | text (content : String)
  | number (literal : String)
  | variable (name : String)
  | request (request : Request)
  deriving DecidableEq, Repr

/-- One statement of a case. -/
inductive Statement where
  | request (request : Request)
  /-- Start the terminals with these names. -/
  | declare (names : List String)
  | assign (target : String) (value : Expr)
  | check (relation : Relation) (left right : Expr)
  deriving DecidableEq, Repr

/-- A test case and the line of its first word. -/
structure TestCase where
  name : String
  line : Nat
  statements : List Statement
  deriving DecidableEq, Repr

/-- A whole case file. -/
structure CaseFile where
  config : String
  cases : List TestCase
  deriving DecidableEq, Repr

end CaseSuite
