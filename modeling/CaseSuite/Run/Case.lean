import CaseSuite.Plan.Basic
import CaseSuite.Terminal.Call
import CaseSuite.Terminal.Worker
import CaseSuite.Value.Check

/-!
# Running a case

A running case is one thread that works through a plan and then tears its terminals down, beside the
worker of every terminal it started. The thread and each worker move one atomic step at a time. The
thread leaves the body at the first start, read or check that fails; whatever ended the body, all
terminals are then closed and after that joined, in the order in which they were started.
-/

namespace CaseSuite.Case

open Terminal (Answer Call Caller Stage)

variable {σ : Type}

/-- What a name is bound to while a case runs. -/
inductive Binding where
  | terminal (index : Nat)
  | value (v : Value)

/-- The bindings of a case, the latest first. -/
abbrev Bindings := List (String × Binding)

/-- The terminal that a name stands for. -/
def terminalOf? (names : Bindings) (name : String) : Option Nat :=
  match names.lookup name with
  | some (.terminal i) => some i
  | _ => none

/-- The value that a name stands for. -/
def valueOf? (names : Bindings) (name : String) : Option Value :=
  match names.lookup name with
  | some (.value v) => some v
  | _ => none

/-- The call of a method with its argument. -/
def callOf? : Method → Option String → Option Call
  | .execute, some query => some (.execute query)
  | .store, some name => some (.store name)
  | .wait, none => some .wait
  | .rows, some name => some (.rows name)
  | .code, none => some .code
  | _, _ => none

/-- What the thread of a case does next. -/
inductive Thread where
  /-- Take the next action. -/
  | body (rest : List Action)
  /-- Go on with a call and bind its answer if a name waits for it. -/
  | calling (index : Nat) (stage : Stage) (target : Option String) (rest : List Action)
  /-- The body has ended: close and join the terminals. -/
  | ending (caller : Caller) (outcome : Outcome)
  | returned (outcome : Outcome)

/-- A case that runs. -/
structure Running (σ : Type) where
  world : σ
  /-- The terminals in the order in which they were started. -/
  terminals : List Terminal := []
  names : Bindings := []
  thread : Thread

/-- A case before its first step. -/
def Running.new (w : σ) (p : Plan) : Running σ :=
  { world := w, thread := .body p.actions }

/-- Close all terminals, then join all of them. -/
def teardownCalls (terminals : Nat) : List (Nat × Call) :=
  (List.range terminals).map (·, .close) ++ (List.range terminals).map (·, .join)

/-- Leave the body with an outcome. -/
def Running.leave (m : Running σ) (outcome : Outcome) : Running σ :=
  { m with thread := .ending { todo := teardownCalls m.terminals.length } outcome }

/-- Bind a name if there is one, and go on with the body. -/
def Running.resume (m : Running σ) (target : Option String) (b : Binding) (rest : List Action) :
    Running σ :=
  let names := match target with
    | some name => (name, b) :: m.names
    | none => m.names
  { m with names, thread := .body rest }

/-- Evaluate an operand and go on; a name that stands for nothing fitting leaves no step. -/
def Running.evaluate (m : Running σ) (value : Operand) (target : Option String)
    (rest : List Action) : Option (Running σ) :=
  match value with
  | .text content => some (m.resume target (.value (.text content)) rest)
  | .int n => some (m.resume target (.value (.int n)) rest)
  | .float x => some (m.resume target (.value (.float x)) rest)
  | .variable name => (m.names.lookup name).map fun b => m.resume target b rest
  | .call terminal method argument =>
      match terminalOf? m.names terminal, callOf? method argument with
      | some i, some call => some { m with thread := .calling i call.stage target rest }
      | _, _ => none

/-- Run one action. -/
def Running.act (db : Database σ) (env : Environment) (m : Running σ) (a : Action)
    (rest : List Action) : Option (Running σ) :=
  match a with
  | .start name =>
      match Terminal.start db env m.world name with
      | (.error e, world) => some ({ m with world }.leave (.error e))
      | (.ok t, world) =>
          some {
            world
            terminals := m.terminals ++ [t]
            names := (name, .terminal m.terminals.length) :: m.names
            thread := .body rest }
  | .bind target value => m.evaluate value (some target) rest
  | .run value => m.evaluate value none rest
  | .check relation left right =>
      match valueOf? m.names left, valueOf? m.names right with
      | some l, some r =>
          match relation.check l r with
          | .ok () => some { m with thread := .body rest }
          | .error e => some (m.leave (.error e))
      | _, _ => none

/-- Go on after a call has returned. -/
def Running.receive (m : Running σ) (target : Option String) (rest : List Action) :
    Answer → Running σ
  | .nothing => { m with thread := .body rest }
  | .value v => m.resume target (.value v) rest
  | .error e => m.leave (.error (.run e))

/-- One step of the thread; there is none while it is blocked, nor after it has returned. -/
def Running.threadStep (db : Database σ) (env : Environment) (m : Running σ) :
    Option (Running σ) :=
  match m.thread with
  | .body [] => some (m.leave (.ok ()))
  | .body (a :: rest) => m.act db env a rest
  | .calling i stage target rest =>
      match m.terminals[i]? with
      | none => none
      | some t =>
          match t.callStep stage with
          | none => none
          | some (t, .goOn stage) =>
              some { m with
                terminals := m.terminals.set i t
                thread := .calling i stage target rest }
          | some (t, .done answer) =>
              some ({ m with terminals := m.terminals.set i t }.receive target rest answer)
  | .ending caller outcome =>
      if caller.isDone then some { m with thread := .returned outcome }
      else
        match caller.step m.terminals with
        | none => none
        | some (terminals, caller) => some { m with terminals, thread := .ending caller outcome }
  | .returned _ => none

/-- One step of a worker. -/
def Running.workerStep (db : Database σ) (m : Running σ) (i : Nat) : Option (Running σ) :=
  match m.terminals[i]? with
  | none => none
  | some t =>
      match t.workerStep db m.world with
      | none => none
      | some (world, t) => some { m with world, terminals := m.terminals.set i t }

/-- Who moves. -/
inductive Mover where
  | thread
  | worker (terminal : Nat)
  deriving DecidableEq, Repr

/-- The case after one step of a mover, if the mover has one. -/
def Running.move (db : Database σ) (env : Environment) (m : Running σ) :
    Mover → Option (Running σ)
  | .thread => m.threadStep db env
  | .worker i => m.workerStep db i

/-- A case can get from one state to another by one step of somebody. -/
def Running.Step (db : Database σ) (env : Environment) (m m' : Running σ) : Prop :=
  ∃ mover, m.move db env mover = some m'

/-! ## One way to run a case -/

/-- A bound on the steps of the thread; a terminal costs a close and a join. -/
def Thread.work (terminals : Nat) : Thread → Nat
  | .body rest => 20 * rest.length + 14 * terminals + 2
  | .calling _ stage _ rest => 20 * rest.length + 14 * terminals + 2 + stage.work
  | .ending caller _ => caller.work + 1
  | .returned _ => 0

/-- A bound on the steps of the thread of a case. -/
def Running.work (m : Running σ) : Nat := m.thread.work m.terminals.length

theorem length_teardownCalls (n : Nat) : (teardownCalls n).length = 2 * n := by
  simp only [teardownCalls, List.length_append, List.length_map, List.length_range]
  omega

theorem Running.work_leave (m : Running σ) (outcome : Outcome) :
    (m.leave outcome).work = 14 * m.terminals.length + 1 := by
  simp only [work, Thread.work, leave, Caller.work, length_teardownCalls]
  omega

theorem Running.work_resume (m : Running σ) (target : Option String) (b : Binding)
    (rest : List Action) :
    (m.resume target b rest).work = 20 * rest.length + 14 * m.terminals.length + 2 :=
  rfl

theorem Running.work_receive_le (m : Running σ) (target : Option String) (rest : List Action)
    (answer : Answer) :
    (m.receive target rest answer).work ≤ 20 * rest.length + 14 * m.terminals.length + 2 := by
  cases answer with
  | nothing => exact Nat.le_refl _
  | value v => exact Nat.le_of_eq (m.work_resume _ _ _)
  | error e =>
      simp only [receive, work_leave]
      omega

theorem Running.work_lt_of_evaluate {m m' : Running σ} {value : Operand}
    {target : Option String} {rest : List Action}
    (h : m.evaluate value target rest = some m') :
    m'.work < 20 * (rest.length + 1) + 14 * m.terminals.length + 2 := by
  unfold evaluate at h
  split at h
  · cases h
    rw [work_resume]
    omega
  · cases h
    rw [work_resume]
    omega
  · cases h
    rw [work_resume]
    omega
  · obtain ⟨b, -, rfl⟩ := Option.map_eq_some_iff.1 h
    rw [work_resume]
    omega
  · split at h
    · rename_i call _ _
      cases h
      have := Stage.work_le call.stage
      simp only [work, Thread.work]
      omega
    · cases h

theorem Running.work_lt_of_act {db : Database σ} {env : Environment} {m m' : Running σ}
    {a : Action} {rest : List Action} (h : m.act db env a rest = some m') :
    m'.work < 20 * (rest.length + 1) + 14 * m.terminals.length + 2 := by
  unfold act at h
  split at h
  · split at h
    · cases h
      rw [work_leave]
      simp only
      omega
    · cases h
      simp only [work, Thread.work, List.length_append, List.length_singleton]
      omega
  · exact work_lt_of_evaluate h
  · exact work_lt_of_evaluate h
  · split at h
    · split at h
      · cases h
        simp only [work, Thread.work]
        omega
      · cases h
        rw [work_leave]
        omega
    · cases h

/-- Every step of the thread is progress. -/
theorem Running.work_lt_of_threadStep {db : Database σ} {env : Environment}
    {m m' : Running σ} (h : m.threadStep db env = some m') : m'.work < m.work := by
  unfold threadStep at h
  split at h
  · rename_i hthread
    cases h
    rw [work_leave]
    simp [work, hthread, Thread.work]
  · rename_i a rest hthread
    have := work_lt_of_act h
    simpa [work, hthread, Thread.work] using this
  · rename_i i stage target rest hthread
    have hbefore : m.work = 20 * rest.length + 14 * m.terminals.length + 2 + stage.work := by
      simp [work, hthread, Thread.work]
    split at h
    · cases h
    · split at h
      · cases h
      · rename_i hstep
        cases h
        have := Terminal.work_lt_of_callStep hstep
        simp only [work, Thread.work, List.length_set] at hbefore ⊢
        omega
      · rename_i t _ t' answer hstep
        cases h
        have hpos : 0 < stage.work := by cases stage <;> simp [Stage.work]
        have hle := Running.work_receive_le { m with terminals := m.terminals.set i t' }
          target rest answer
        simp only [List.length_set] at hle
        omega
  · rename_i caller outcome hthread
    have hbefore : m.work = caller.work + 1 := by simp [work, hthread, Thread.work]
    split at h
    · cases h
      rw [hbefore]
      simp [work, Thread.work]
    · split at h
      · cases h
      · rename_i hstep
        cases h
        have := Caller.work_lt_of_step hstep
        rw [hbefore]
        simpa [work, Thread.work] using this
  · cases h

/-- The body of the case has ended. -/
def Running.hasLeft (m : Running σ) : Bool :=
  match m.thread with
  | .ending _ _ | .returned _ => true
  | _ => false

/-- Let all workers work; held queries are released once the body has ended. -/
def Running.settle (db : Database σ) (held : String → Bool) (m : Running σ) : Running σ :=
  let held := if m.hasLeft then fun _ => false else held
  let (world, terminals) := Terminal.settleAll db held m.world m.terminals
  { m with world, terminals }

theorem Running.work_settle (db : Database σ) (held : String → Bool) (m : Running σ) :
    (m.settle db held).work = m.work := by
  simp [settle, work, Terminal.length_settleAll]

/-- The thread is about to send a held query. -/
def Running.sendsHeld (held : String → Bool) (m : Running σ) : Bool :=
  match m.thread with
  | .calling _ (.sending (.execute query)) _ _ => held query
  | _ => false

/--
Run a case: its thread goes on until it is blocked, and then the workers do all they can. After
sending a held query the thread lets the worker come to it first.
-/
def Running.run (db : Database σ) (env : Environment) (held : String → Bool)
    (m : Running σ) : Running σ :=
  match _h : m.threadStep db env with
  | some m' =>
      if m.sendsHeld held then Running.run db env held (m'.settle db held)
      else Running.run db env held m'
  | none =>
      match _h : (m.settle db held).threadStep db env with
      | some m' => Running.run db env held m'
      | none => m.settle db held
termination_by m.work
decreasing_by
  · rw [Running.work_settle]
    exact Running.work_lt_of_threadStep _h
  · exact Running.work_lt_of_threadStep _h
  · rw [← Running.work_settle db held m]
    exact Running.work_lt_of_threadStep _h

/-- The outcome of a case that has returned. -/
def Running.outcome? (m : Running σ) : Option Outcome :=
  match m.thread with
  | .returned outcome => some outcome
  | _ => none

end CaseSuite.Case
