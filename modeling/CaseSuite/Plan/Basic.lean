import CaseSuite.CaseFile.Basic
import CaseSuite.Number.Binary64

/-!
# Plans

A plan is a test case flattened into actions that run in order: every operand of a check and every
assigned value is first bound to a name, and every call on a terminal stands alone. A program lays
plans out as routines, each of which runs its plan under guard and then tears its terminals down.
-/

namespace CaseSuite

/-- What can be asked of a terminal. -/
inductive Method where
  | execute
  | store
  | wait
  | rows
  | code
  deriving DecidableEq, Repr

namespace Method

/-- The name of a method in generated code. -/
def name : Method → String
  | execute => "execute"
  | store => "store_result"
  | wait => "wait_finish"
  | rows => "get_result_set"
  | code => "get_last_ret_code"

/-- Asking for rows fails when there are none under that name. -/
def fallible : Method → Bool
  | rows => true
  | _ => false

end Method

/-- What a name can be bound to. -/
inductive Operand where
  | text (content : String)
  | int (value : Int64)
  | float (value : Binary64)
  | variable (name : String)
  | call (terminal : String) (method : Method) (argument : Option String)
  deriving DecidableEq, Repr

/-- One step of a plan. -/
inductive Action where
  /-- Start a terminal and bind it to its name. -/
  | start (terminal : String)
  | bind (target : String) (value : Operand)
  /-- Evaluate for the effect alone. -/
  | run (value : Operand)
  | check (relation : Relation) (left right : String)
  deriving DecidableEq, Repr

/-- The actions of one case, under the name of its function. -/
structure Plan where
  function : String
  actions : List Action
  deriving DecidableEq, Repr

/-- The plans of a case file. -/
structure Suite where
  config : String
  plans : List Plan
  deriving DecidableEq, Repr

/-- One instruction of a routine. -/
inductive Instr where
  /-- Begin to keep track of the terminals that are started. -/
  | register
  | action (a : Action)
  /-- Run a body and keep its outcome, whatever ends it. -/
  | guarded (label : String) (body : List Instr)
  /-- Close all terminals, then join all of them. -/
  | teardown
  deriving Repr

/-- A function of the generated module. -/
structure Routine where
  function : String
  body : List Instr
  deriving Repr

/-- The generated module before it is written out. -/
structure Program where
  config : String
  routines : List Routine
  deriving Repr

/-- A plan as a routine. -/
def Plan.routine (p : Plan) : Routine :=
  ⟨p.function, [.register, .guarded p.function (p.actions.map .action), .teardown]⟩

/-- The program of a suite. -/
def Suite.program (s : Suite) : Program :=
  ⟨s.config, s.plans.map Plan.routine⟩

end CaseSuite
