import CaseSuite.Run.Case

/-!
# Runs over a sequential runtime

A runtime starts terminals and answers calls on them one after the other.  How it answers is left
open: a connection may be refused, rows may be missing and a return code may be anything.  Over
any runtime a list of actions can be run, and so can the statements of a case as they are written.
Both keep a record of the operations they asked for and of the names they bound.

A run halts early when a terminal does not start, when rows cannot be read or when a check fails.
It is stuck when a name stands for nothing, or for a terminal where a value is needed or a value
where a terminal is needed.
-/

namespace CaseSuite
namespace Case

open Terminal (Answer Call)

variable {σ : Type}

/-- How terminals are started and calls on them answered, in states `σ`. -/
structure Runtime (σ : Type) where
  start : σ → (name : String) → Except Failure Nat × σ
  execute : σ → (terminal : Nat) → (query : String) → σ
  store : σ → (terminal : Nat) → (name : String) → σ
  wait : σ → (terminal : Nat) → σ
  rows : σ → (terminal : Nat) → (name : String) → Except RunError Value × σ
  code : σ → (terminal : Nat) → Value × σ

/-- Make a call; those that a body never makes are left out. -/
def Runtime.perform (rt : Runtime σ) (w : σ) (terminal : Nat) : Call → Answer × σ
  | .execute query => (.nothing, rt.execute w terminal query)
  | .store name => (.nothing, rt.store w terminal name)
  | .wait => (.nothing, rt.wait w terminal)
  | .rows name => (.ofExcept (rt.rows w terminal name).1, (rt.rows w terminal name).2)
  | .code => (.value (rt.code w terminal).1, (rt.code w terminal).2)
  | _ => (.nothing, w)

/-- What is asked of a runtime. -/
inductive Operation where
  | start (name : String)
  | call (terminal : Nat) (call : Call)
  deriving DecidableEq, Repr

/-- What a run has done so far. -/
structure Record (σ : Type) where
  state : σ
  names : Bindings := []
  operations : List Operation := []

/-- Why a run does not go on. -/
inductive Halt where
  | failed (e : Failure)
  | stuck

/-- A run may halt, and keeps its record even then. -/
abbrev Run (σ : Type) := ExceptT Halt (StateM (Record σ))

namespace Run

/-- Begin a run. -/
def runFrom {α : Type} (x : Run σ α) (r : Record σ) : Except Halt α × Record σ :=
  x.run.run r

/-- Start a terminal. -/
def start (rt : Runtime σ) (name : String) : Run σ Nat := do
  let r : Record σ ← get
  let (result, state) := rt.start r.state name
  set { r with state, operations := r.operations ++ [Operation.start name] }
  match result with
  | .ok terminal => return terminal
  | .error e => throw (.failed e)

/-- Make a call on a terminal and give back its value if it has one. -/
def call (rt : Runtime σ) (terminal : Nat) (c : Call) : Run σ (Option Value) := do
  let r : Record σ ← get
  let (answer, state) := rt.perform r.state terminal c
  set { r with state, operations := r.operations ++ [Operation.call terminal c] }
  match answer with
  | .nothing => return none
  | .value v => return some v
  | .error e => throw (.failed (.run e))

/-- Bind a name; an earlier binding is hidden. -/
def bindName (name : String) (b : Binding) : Run σ Unit :=
  modify fun r => { r with names := (name, b) :: r.names }

/-- What a name stands for. -/
def binding (name : String) : Run σ Binding := do
  match (← get).names.lookup name with
  | some b => return b
  | none => throw .stuck

/-- The terminal that a name stands for. -/
def terminal (name : String) : Run σ Nat := do
  match terminalOf? (← get).names name with
  | some i => return i
  | none => throw .stuck

/-- Check a relation between two bindings, which both have to be values. -/
def check (relation : Relation) : Binding → Binding → Run σ Unit
  | .value left, .value right =>
      match relation.check left right with
      | .ok () => return ()
      | .error e => throw (.failed e)
  | _, _ => throw .stuck

/-! ## Actions -/

/-- Evaluate an operand; a call without an answer has no binding. -/
def operand (rt : Runtime σ) : Operand → Run σ (Option Binding)
  | .text content => return some (.value (.text content))
  | .int n => return some (.value (.int n))
  | .float x => return some (.value (.float x))
  | .variable name => return some (← binding name)
  | .call name method argument => do
      let i ← terminal name
      match callOf? method argument with
      | some c => return (← call rt i c).map .value
      | none => throw .stuck

/-- Run an action. -/
def action (rt : Runtime σ) : Action → Run σ Unit
  | .start name => do
      let i ← start rt name
      bindName name (.terminal i)
  | .bind target value => do
      match ← operand rt value with
      | some b => bindName target b
      | none => return ()
  | .run value => do
      let _ ← operand rt value
  | .check relation left right => do
      check relation (← binding left) (← binding right)

/-- Run actions in order. -/
def actions (rt : Runtime σ) : List Action → Run σ Unit
  | [] => return ()
  | a :: as => do
      action rt a
      actions rt as

/-! ## Statements -/

/-- The value of a number as it is written. -/
def literal? (literal : String) : Option Value :=
  if literal.toList.contains '.' then
    match Binary64.read? literal with
    | some x => if x.isFinite then some (.float x) else none
    | none => none
  else (Number.readInt64? literal.toList).map .int

/-- The name that the rows of a request are kept under. -/
def resultName : Target → String
  | .implicit => "result"
  | .named _ => "scope_term_result"

/-- The terminal that a request goes to. -/
def addressee (implicit : Nat) : Target → Run σ Nat
  | .implicit => return implicit
  | .named name => terminal name

/-- Dispatch a request to its terminal. -/
def send (rt : Runtime σ) (implicit : Nat) (r : Request) : Run σ Nat := do
  let i ← addressee implicit r.target
  let _ ← call rt i (.execute r.query)
  if r.fetch then
    let _ ← call rt i (.store (resultName r.target))
  if r.timing = .sync then
    let _ ← call rt i .wait
  return i

/-- The answer to a request is its rows if they were fetched, and else the return code. -/
def answerCall (r : Request) : Call :=
  if r.fetch then .rows (resultName r.target) else .code

/-- Read the answer to a request. -/
def readAnswer (rt : Runtime σ) (r : Request) (i : Nat) : Run σ Binding := do
  match ← call rt i (answerCall r) with
  | some v => return .value v
  | none => throw .stuck

/-- Evaluate an expression. -/
def expression (rt : Runtime σ) (implicit : Nat) : Expr → Run σ Binding
  | .text content => return .value (.text content)
  | .number literal =>
      match literal? literal with
      | some v => return .value v
      | none => throw .stuck
  | .variable name => binding name
  | .request r => do
      let i ← send rt implicit r
      readAnswer rt r i

/-- Start terminals in order and bind each to its name. -/
def declare (rt : Runtime σ) : List String → Run σ Unit
  | [] => return ()
  | name :: names => do
      let i ← start rt name
      bindName name (.terminal i)
      declare rt names

/-- Run a statement; the left operand of a check is evaluated before the right one. -/
def statement (rt : Runtime σ) (implicit : Nat) : Statement → Run σ Unit
  | .request r => do
      let _ ← send rt implicit r
  | .declare names => declare rt names
  | .assign target value => do
      bindName target (← expression rt implicit value)
  | .check relation left right => do
      let l ← expression rt implicit left
      let r ← expression rt implicit right
      check relation l r

/-- Run statements in order. -/
def statements (rt : Runtime σ) (implicit : Nat) : List Statement → Run σ Unit
  | [] => return ()
  | s :: ss => do
      statement rt implicit s
      statements rt implicit ss

/-! ## What single steps of a run give -/

@[simp] theorem runFrom_bind
    {α β : Type} (x : Run σ α) (f : α → Run σ β) (r : Record σ) :
    (x >>= f).runFrom r =
      match x.runFrom r with
      | (.ok a, r) => (f a).runFrom r
      | (.error h, r) => (.error h, r) := by
  rw [Run.runFrom, Run.runFrom]
  change (match x.run.run r with | (a, s) => (ExceptT.bindCont f a).run s) = _
  rcases x.run.run r with ⟨_ | a, r'⟩
  · rfl
  · rfl

@[simp] theorem runFrom_pure
    {α : Type} (a : α) (r : Record σ) : (pure a : Run σ α).runFrom r = (.ok a, r) :=
  rfl

@[simp] theorem runFrom_throw
    {α : Type} (h : Halt) (r : Record σ) : (throw h : Run σ α).runFrom r = (.error h, r) :=
  rfl

@[simp] theorem runFrom_get (r : Record σ) : (get : Run σ (Record σ)).runFrom r = (.ok r, r) :=
  rfl

@[simp] theorem runFrom_set (r r' : Record σ) : (set r' : Run σ Unit).runFrom r = (.ok (), r') :=
  rfl

@[simp] theorem runFrom_bindName
    (name : String) (b : Binding) (r : Record σ) :
    (bindName name b).runFrom r = (.ok (), { r with names := (name, b) :: r.names }) :=
  rfl

@[simp] theorem runFrom_start
    (rt : Runtime σ) (name : String) (r : Record σ) :
    (start rt name).runFrom r =
      ((rt.start r.state name).1.mapError .failed,
        { r with
          state := (rt.start r.state name).2
          operations := r.operations ++ [.start name] }) := by
  simp only [start, runFrom_bind, runFrom_get, runFrom_set]
  cases (rt.start r.state name).1 with
  | ok i => rfl
  | error e => rfl

/-- What a run makes of the answer to a call. -/
def ofAnswer : Answer → Except Halt (Option Value)
  | .nothing => .ok none
  | .value v => .ok (some v)
  | .error e => .error (.failed (.run e))

@[simp] theorem runFrom_call
    (rt : Runtime σ) (i : Nat) (c : Call) (r : Record σ) :
    (call rt i c).runFrom r =
      (ofAnswer (rt.perform r.state i c).1,
        { r with
          state := (rt.perform r.state i c).2
          operations := r.operations ++ [.call i c] }) := by
  simp only [call, runFrom_bind, runFrom_get, runFrom_set]
  cases (rt.perform r.state i c).1 with
  | nothing => rfl
  | value v => rfl
  | error e => rfl

theorem runFrom_binding_of_some
    {name : String} {b : Binding} {r : Record σ} (h : r.names.lookup name = some b) :
    (binding name).runFrom r = (.ok b, r) := by
  simp [binding, h]

theorem runFrom_binding_of_none
    {name : String} {r : Record σ} (h : r.names.lookup name = none) :
    (binding name).runFrom r = (.error .stuck, r) := by
  simp [binding, h]

theorem runFrom_terminal_of_some
    {name : String} {i : Nat} {r : Record σ} (h : terminalOf? r.names name = some i) :
    (terminal name).runFrom r = (.ok i, r) := by
  simp [terminal, h]

theorem runFrom_terminal_of_none
    {name : String} {r : Record σ} (h : terminalOf? r.names name = none) :
    (terminal name).runFrom r = (.error .stuck, r) := by
  simp [terminal, h]

/-- Actions in two parts are run one part after the other. -/
theorem runFrom_actions_append
    (rt : Runtime σ) (as bs : List Action) (r : Record σ) :
    (actions rt (as ++ bs)).runFrom r =
      match (actions rt as).runFrom r with
      | (.ok (), r) => (actions rt bs).runFrom r
      | (.error h, r) => (.error h, r) := by
  induction as generalizing r with
  | nil => simp [actions]
  | cons a as ih =>
      simp only [List.cons_append, actions, runFrom_bind]
      rcases (action rt a).runFrom r with ⟨h | u, r'⟩
      · rfl
      · simp only [ih]

end Run

/-- Run the actions of a plan. -/
def runPlan (rt : Runtime σ) (w : σ) (p : Plan) : Except Halt Unit × Record σ :=
  (Run.actions rt p.actions).runFrom { state := w }

/-- Run a case as it is written: start its implicit terminal, then run its statements. -/
def runCase (rt : Runtime σ) (w : σ) (c : TestCase) : Except Halt Unit × Record σ :=
  Run.runFrom (do
    let implicit ← Run.start rt "case_terminal"
    Run.statements rt implicit c.statements) { state := w }

end Case
end CaseSuite
