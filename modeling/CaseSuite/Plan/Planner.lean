import CaseSuite.Plan.Basic
import CaseSuite.Number.Text
import CaseSuite.Text.Quoted

/-!
# From case files to plans

Planning numbers the cases and, within each case, the temporaries. The numbering outlives an error,
so a later file never reuses the number of a case that was begun.
-/

namespace CaseSuite

/-- Why a case has no plan. -/
inductive PlanError where
  | numberOutOfRange (literal : String)
  | reservedName (name testCase : String)
  deriving DecidableEq, Repr

/-- The text of the error. -/
def PlanError.message : PlanError → String
  | numberOutOfRange literal => "Numeric literal out of range: " ++ literal
  | reservedName name testCase =>
      "'" ++ name ++ "' in case '" ++ testCase ++ "' clashes with a name the generated case uses"

namespace Plan

/-- The name of the terminal that every case has. -/
def implicitTerminal : String := "case_terminal"

/-- Names that a generated case uses itself. -/
def reservedNames : List String :=
  ["terminals", "outcome", implicitTerminal, "CONFIG", "Some", "None", "Ok", "Err"]

/-- What the name of a temporary begins with. -/
def temporaryStem : String := "tmp_"

/-- The name of a temporary. -/
def temporary (n : Nat) : String := temporaryStem ++ Nat.repr n

/-- A name of the form that temporaries have. -/
def isTemporary (name : String) : Bool :=
  let cs := name.toList
  let stem := temporaryStem.toList
  let digits := cs.drop stem.length
  stem.isPrefixOf cs && !digits.isEmpty && digits.all Number.isDigit

/-- A name that a case file may not use. -/
def isReserved (name : String) : Bool :=
  name ∈ reservedNames || isTemporary name

/-- The value of a number literal: with a point a finite double, without one a 64-bit integer. -/
def number? (literal : String) : Option Operand :=
  if literal.toList.contains '.' then
    match Binary64.read? literal with
    | some x => if x.isFinite then some (.float x) else none
    | none => none
  else (Number.readInt64? literal.toList).map .int

/-- How far the numbering of cases and temporaries has come. -/
structure Numbering where
  /-- The number of the next case. -/
  nextCase : Nat := 1
  /-- The case that was begun last. -/
  caseName : String := ""
  /-- How many temporaries that case has. -/
  temporaries : Nat := 0
  deriving DecidableEq, Repr

/-- The numbering as it is shown. -/
def Numbering.describe (n : Numbering) : String :=
  "Emitter \x7b case_seq: " ++ Nat.repr n.nextCase ++ ", case_name: " ++ Text.literal n.caseName ++
    ", temp_seq: " ++ Nat.repr n.temporaries ++ " \x7d"

/-- Planning may fail, and keeps the numbering even then. -/
abbrev Planner := ExceptT PlanError (StateM Numbering)

/-- Refuse a reserved name. -/
def userName (name : String) : Planner String := do
  if isReserved name then throw (.reservedName name (← get).caseName)
  return name

/-- Bind a value to the next temporary. -/
def bindTemporary (value : Operand) : Planner (List Action × String) := do
  modify fun n => { n with temporaries := n.temporaries + 1 }
  let name := temporary (← get).temporaries
  return ([.bind name value], name)

/-- How the answer to a request can be read once its actions have run. -/
structure Sent where
  terminal : String
  fetched : Bool
  resultName : String
  deriving DecidableEq, Repr

/-- The operand that reads the answer: the rows, or else the return code. -/
def Sent.answer (s : Sent) : Operand :=
  if s.fetched then .call s.terminal .rows (some s.resultName)
  else .call s.terminal .code none

/-- The terminal of a request and the name its rows are kept under. -/
def destination : Target → Planner (String × String)
  | .implicit => return (implicitTerminal, "result")
  | .named name => return (← userName name, "scope_term_result")

/-- Execute the query, keep its rows if they are wanted, and wait unless told not to. -/
def request (r : Request) : Planner (List Action × Sent) := do
  let (terminal, resultName) ← destination r.target
  let execute : List Action := [.run (.call terminal .execute (some r.query))]
  let store : List Action :=
    if r.fetch then [.run (.call terminal .store (some resultName))] else []
  let wait : List Action :=
    if r.timing = .sync then [.run (.call terminal .wait none)] else []
  return (execute ++ store ++ wait, ⟨terminal, r.fetch, resultName⟩)

/-- Evaluate an expression into a temporary. -/
def expression : Expr → Planner (List Action × String)
  | .text content => bindTemporary (.text content)
  | .number literal => do
      match number? literal with
      | some value => bindTemporary value
      | none => throw (.numberOutOfRange literal)
  | .variable name => do
      bindTemporary (.variable (← userName name))
  | .request r => do
      let (sending, sent) ← request r
      let (binding, name) ← bindTemporary sent.answer
      return (sending ++ binding, name)

/-- Start terminals in order. -/
def declaration : List String → Planner (List Action)
  | [] => return []
  | name :: names => do
      let name ← userName name
      return .start name :: (← declaration names)

/-- The actions of a statement. -/
def statement : Statement → Planner (List Action)
  | .request r => do
      let (sending, _) ← request r
      return sending
  | .declare names => declaration names
  | .assign target value => do
      let (evaluation, name) ← expression value
      let target ← userName target
      return evaluation ++ [.bind target (.variable name)]
  | .check relation left right => do
      let (first, left) ← expression left
      let (second, right) ← expression right
      return first ++ second ++ [.check relation left right]

/-- The actions of statements in order. -/
def statements : List Statement → Planner (List Action)
  | [] => return []
  | s :: ss => do
      let first ← statement s
      return first ++ (← statements ss)

/-- The function of a case. -/
def functionName (number : Nat) (name : String) : String :=
  "test_" ++ Nat.repr number ++ "_" ++ name

/-- Begin a case: it takes the next number and has no temporaries yet. -/
def beginCase (name : String) : Planner String := do
  let n ← get
  set (Numbering.mk (n.nextCase + 1) name 0)
  return functionName n.nextCase name

/-- The plan of a case; its first action starts the implicit terminal. -/
def testCase (c : TestCase) : Planner Plan := do
  let function ← beginCase c.name
  let body ← statements c.statements
  return ⟨function, .start implicitTerminal :: body⟩

/-- The plans of cases in order. -/
def testCases : List TestCase → Planner (List Plan)
  | [] => return []
  | c :: cs => do
      let plan ← testCase c
      return plan :: (← testCases cs)

/-- The plans of a case file. -/
def suite (file : CaseFile) : Planner Suite := do
  return ⟨file.config, ← testCases file.cases⟩

/-- Run a planner from a given numbering. -/
def Planner.runFrom {α : Type} (p : Planner α) (n : Numbering) :
    Except PlanError α × Numbering :=
  p.run.run n

end Plan

/-- The plans of a case file on its own. -/
def CaseFile.suite (file : CaseFile) : Except PlanError Suite :=
  ((Plan.suite file).runFrom {}).1

end CaseSuite
