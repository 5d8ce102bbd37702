import CaseSuite.Proofs.Execution.Runtime
import CaseSuite.Proofs.Terminal.Order

/-!
# Sequential terminals

A line is a terminal without a worker: a task is run at the moment it is sent.  After a crash the
line is dead; it drops every further task, its code is an error and results that were asked for
stay unready.  Lines over one database make up a runtime for plans.

A terminal with a worker foretells such a line: let the worker finish what it has in hand, then
what is in its queue.  No step of the worker changes what its terminal foretells, and sending a
task changes it as the line would have changed.
-/

namespace CaseSuite
namespace Case

open Terminal (Deed Phase ReturnCode Stored Task Verdict Works rowsValue)

variable {σ : Type}

/-! ## Lines -/

/-- A terminal that runs each task at once. -/
structure Line where
  name : String
  connection : Nat
  code : ReturnCode := .success
  results : List (String × Stored) := []
  alive : Bool := true

namespace Line

/-- The line after a crash. -/
def lost (l : Line) : Line := { l with code := .error, alive := false }

def report (l : Line) (d : Diagnostic) : Line :=
  { l with code := (Verdict.ofDiagnostic d).code }

def store (l : Line) (name : String) (s : Stored) : Line :=
  { l with results := (name, s) :: l.results }

/-- The line after the answer to a query. -/
def answered (l : Line) : Reply Unit → Line
  | .done _ => { l with code := .success }
  | .refused d => l.report d
  | .crashed _ => l.lost

/-- The line after the answer to a fetch. -/
def fetched (l : Line) (name : String) : Reply (List Row) → Line
  | .done rows => l.store name (.ready (rowsValue rows))
  | .refused d => l.report d
  | .crashed _ => l.lost

/-- Run a task. -/
def run (db : Database σ) (w : σ) (l : Line) : Task → σ × Line
  | .execute query =>
      ((db.execute w l.connection query).2, l.answered (db.execute w l.connection query).1)
  | .fetch name => ((db.fetch w l.connection).2, l.fetched name (db.fetch w l.connection).1)
  | .shutdown => (w, l)

/-- Run a task, unless the line is dead. -/
def submit (db : Database σ) (w : σ) (l : Line) (task : Task) : σ × Line :=
  if l.alive then l.run db w task else (w, l.lost)

def rows (l : Line) (name : String) : Except RunError Value :=
  match l.results.lookup name with
  | some (.ready rows) => .ok rows
  | some .notReady => .error (.resultNotReady l.name name)
  | none => .error (.missingResult l.name name)

end Line

/-- Lines over one database. -/
structure Desk (σ : Type) where
  world : σ
  lines : List Line := []

namespace Desk

/-- Run a task on a line. -/
def submit (db : Database σ) (s : Desk σ) (i : Nat) (task : Task) : Desk σ :=
  match s.lines[i]? with
  | some l => ⟨(l.submit db s.world task).1, s.lines.set i (l.submit db s.world task).2⟩
  | none => s

/-- Mark a result as asked for. -/
def mark (s : Desk σ) (i : Nat) (name : String) : Desk σ :=
  match s.lines[i]? with
  | some l => { s with lines := s.lines.set i (l.store name .notReady) }
  | none => s

/-- Read the rows of a line. -/
def rows (s : Desk σ) (i : Nat) (name : String) : Except RunError Value :=
  match s.lines[i]? with
  | some l => l.rows name
  | none => .error (.missingResult "" name)

/-- Read the code of a line. -/
def code (s : Desk σ) (i : Nat) : Value :=
  match s.lines[i]? with
  | some l => .int l.code.number
  | none => .int ReturnCode.success.number

end Desk

/-- The runtime that runs each task at the moment it is sent. -/
def sequential (db : Database σ) (env : Environment) : Runtime (Desk σ) where
  start s name :=
    match db.connect s.world env.config env.autoCommit with
    | (.done connection, w) => (.ok s.lines.length, ⟨w, s.lines ++ [{ name, connection }]⟩)
    | (.refused d, w) => (.error (.run (.connect name d)), { s with world := w })
    | (.crashed message, w) => (.error (.crash message), { s with world := w })
  execute s i query := s.submit db i (.execute query)
  store s i name := (s.mark i name).submit db i (.fetch name)
  wait s _ := s
  rows s i name := (s.rows i name, s)
  code s i := (s.code i, s)

theorem sequential_start_ok
    {db : Database σ} {env : Environment} {s : Desk σ} {w : σ} {connection : Nat} (name : String)
    (h : db.connect s.world env.config env.autoCommit = (.done connection, w)) :
    (sequential db env).start s name =
      (.ok s.lines.length, ⟨w, s.lines ++ [{ name, connection : Line }]⟩) := by
  simp only [sequential, h]

/-- Where a terminal does not start, the desk fails in the same way. -/
theorem sequential_start_error
    {db : Database σ} {env : Environment} {s : Desk σ} {w : σ} {name : String} {e : Failure}
    (h : Terminal.start db env s.world name = (.error e, w)) :
    (sequential db env).start s name = (.error e, { s with world := w }) := by
  rcases hconnect : db.connect s.world env.config env.autoCommit with
    ⟨connection | d | message, w'⟩
  · simp [Terminal.start, hconnect] at h
  · simp only [Terminal.start, hconnect, Prod.mk.injEq, Except.error.injEq] at h
    obtain ⟨rfl, rfl⟩ := h
    simp only [sequential, hconnect]
  · simp only [Terminal.start, hconnect, Prod.mk.injEq, Except.error.injEq] at h
    obtain ⟨rfl, rfl⟩ := h
    simp only [sequential, hconnect]

end Case

/-! ## What a terminal foretells -/

namespace Terminal

open Case (Line)

variable {σ : Type}

/-- The line that callers see. -/
def line (t : Terminal) : Line :=
  { name := t.name, connection := t.connection, code := t.last.code, results := t.results }

/-- What a line comes to once a worker is through with what it has in hand. -/
def through (db : Database σ) (w : σ) (l : Line) : Phase → σ × Line
  | .arriving | .waiting | .finishing => (w, l)
  | .starting task => l.run db w task
  | .clearing query | .executing query => l.run db w (.execute query)
  | .fetching name => l.run db w (.fetch name)
  | .storing name rows => (w, l.store name (.ready rows))
  | .reporting d => (w, l.report d)
  | .closing | .crashing | .leaving | .sealing | .dropping | .gone => (w, l.lost)

/-- Run tasks on a line. -/
def submitAll (db : Database σ) (s : σ × Line) (tasks : List Task) : σ × Line :=
  tasks.foldl (fun s task => s.2.submit db s.1 task) s

/-- The line once the worker is through with its queue. -/
def foresee (db : Database σ) (w : σ) (t : Terminal) : σ × Line :=
  submitAll db (through db w t.line t.phase) t.queue

theorem submitAll_lost
    (db : Database σ) (w : σ) (l : Line) (tasks : List Task) :
    submitAll db (w, l.lost) tasks = (w, l.lost) := by
  induction tasks with
  | nil => rfl
  | cons task tasks ih => exact ih

/-- While a case is in its body no worker is asked to leave. -/
structure Serving (t : Terminal) : Prop where
  handles : t.handles ≠ 0
  queue : .shutdown ∉ t.queue
  starting : t.phase ≠ .starting .shutdown
  closing : t.phase ≠ .closing
  lost : t.phase.isExit = true → t.phase ≠ .crashing → t.last.code = .error

/-- No step of the worker changes what its terminal foretells. -/
theorem foresee_of_works
    {db : Database σ} {w w' : σ} {t t' : Terminal} {deeds : List Deed}
    (h : Works db w t deeds w' t') (hserving : t.Serving)
    (hcleared : ∀ query, t.phase = .executing query → t.last.code = .success) :
    t'.foresee db w' = t.foresee db w := by
  cases h with
  | arrive hphase => simp [foresee, through, hphase, line]
  | take hphase queue =>
      rw [foresee, foresee, queue]
      simp [through, hphase, submitAll, line, Line.submit]
  | desert _ _ handles => exact absurd handles hserving.handles
  | shut hphase => exact absurd hphase hserving.starting
  | startExecute hphase => simp [foresee, through, hphase, line]
  | startFetch hphase => simp [foresee, through, hphase, line]
  | clear hphase =>
      rename_i query
      have hrun : Line.run db w { t with last := .success }.line (.execute query) =
          t.line.run db w (.execute query) := by
        simp only [Line.run, line]
        congr 1
      -- a query overwrites the code, so forgetting it first changes nothing
      simp only [foresee, through, hphase]
      exact congrArg (submitAll db · t.queue) hrun
  | execute hphase answer =>
      rename_i query reply
      have hthrough : through db w' t.line (.afterExecute reply) =
          through db w t.line (.executing query) := by
        simp only [through, Line.run, line, answer]
        cases reply with
        | done => simp [Phase.afterExecute, Line.answered, hcleared query hphase]
        | refused d => rfl
        | crashed message => rfl
      rw [foresee, foresee, hphase, ← hthrough]
      rfl
  | fetch hphase answer =>
      rename_i name reply
      have hthrough : through db w' t.line (.afterFetch name reply) =
          through db w t.line (.fetching name) := by
        simp only [through, Line.run, line, answer]
        cases reply <;> rfl
      rw [foresee, foresee, hphase, ← hthrough]
      rfl
  | store hphase => simp [foresee, through, hphase, line, Terminal.store, Line.store]
  | report hphase => simp [foresee, through, hphase, line, Line.report]
  | finish hphase => simp [foresee, through, hphase, line, finish]
  | close hphase => exact absurd hphase hserving.closing
  | crash hphase => simp [foresee, through, hphase, line, Line.lost]
  | leave hphase => simp [foresee, through, hphase, line]
  | refuse hphase => simp [foresee, through, hphase, line]
  | drop hphase =>
      simp only [foresee, through, hphase, submitAll_lost]
      rfl

theorem foresee_send
    (db : Database σ) (w : σ) (t : Terminal) (task : Task) :
    { t with queue := t.queue ++ [task] }.foresee db w =
      (t.foresee db w).2.submit db (t.foresee db w).1 task := by
  simp only [foresee, submitAll, List.foldl_append, List.foldl_cons, List.foldl_nil]
  rfl

theorem foresee_of_isSealed
    (db : Database σ) (w : σ) {t : Terminal} (h : t.phase.isSealed = true) :
    t.foresee db w = (w, t.line.lost) := by
  have hthrough : through db w t.line t.phase = (w, t.line.lost) := by
    cases hphase : t.phase with
    | dropping => rfl
    | gone => rfl
    | _ => simp [hphase, Phase.isSealed] at h
  rw [foresee, hthrough, submitAll_lost]

/-- No fetch is under way or in the queue, or none will be run. -/
def Unfetching (t : Terminal) : Prop :=
  t.phase.isSealed = true ∨
    (∀ name, .fetch name ∉ t.queue) ∧ ∀ name, t.phase.isFetching name = false

theorem run_store
    (db : Database σ) (w : σ) (l : Line) (name : String) (s : Stored) (task : Task)
    (htask : ∀ other, task ≠ .fetch other) :
    (l.store name s).run db w task =
      ((l.run db w task).1, (l.run db w task).2.store name s) := by
  cases task with
  | shutdown => rfl
  | fetch other => exact absurd rfl (htask other)
  | execute query =>
      simp only [Line.run]
      congr 1
      change (l.store name s).answered (db.execute w l.connection query).1 = _
      cases (db.execute w l.connection query).1 <;> rfl

theorem submit_store
    (db : Database σ) (w : σ) (l : Line) (name : String) (s : Stored) {task : Task}
    (htask : ∀ other, task ≠ .fetch other) :
    (l.store name s).submit db w task =
      ((l.submit db w task).1, (l.submit db w task).2.store name s) := by
  have halive : (l.store name s).alive = l.alive := rfl
  unfold Line.submit
  rw [halive]
  by_cases h : l.alive = true
  · rw [if_pos h, if_pos h, run_store db w l name s task htask]
  · rw [if_neg h, if_neg h]
    rfl

theorem through_store
    (db : Database σ) (w : σ) (l : Line) (name : String) (s : Stored)
    {phase : Phase} (hphase : ∀ other, phase.isFetching other = false) :
    through db w (l.store name s) phase =
      ((through db w l phase).1, (through db w l phase).2.store name s) := by
  cases phase with
  | starting task =>
      refine run_store db w l name s task ?_
      rintro other rfl
      simpa [Phase.isFetching] using hphase other
  | clearing query => exact run_store db w l name s (.execute query) (by simp)
  | executing query => exact run_store db w l name s (.execute query) (by simp)
  | fetching other => simpa [Phase.isFetching] using hphase other
  | storing other rows => simpa [Phase.isFetching] using hphase other
  | _ => rfl

/-- A name that is marked while no fetch is under way is marked in what is foretold. -/
theorem foresee_store
    (db : Database σ) (w : σ) {t : Terminal} (ht : t.Unfetching) (name : String) (s : Stored) :
    (t.store name s).foresee db w =
      ((t.foresee db w).1, (t.foresee db w).2.store name s) := by
  have hall : ∀ (tasks : List Task), (∀ other, .fetch other ∉ tasks) → ∀ (w : σ) (l : Line),
      submitAll db (w, l.store name s) tasks =
        ((submitAll db (w, l) tasks).1, (submitAll db (w, l) tasks).2.store name s) := by
    intro tasks
    induction tasks with
    | nil => exact fun _ _ _ => rfl
    | cons task tasks ih =>
        intro htasks w l
        have htask : ∀ other, task ≠ .fetch other := by
          rintro other rfl
          exact htasks other List.mem_cons_self
        have hrest : ∀ other, .fetch other ∉ tasks :=
          fun other hin => htasks other (List.mem_cons_of_mem task hin)
        change submitAll db ((l.store name s).submit db w task) tasks = _
        rw [submit_store db w l name s htask, ih hrest]
        rfl
  rcases ht with hsealed | ⟨hqueue, hphase⟩
  · rw [foresee_of_isSealed db w hsealed, foresee_of_isSealed db w (t := t.store name s) hsealed]
    rfl
  · have hthrough := through_store db w t.line name s hphase
    change submitAll db (through db w (t.line.store name s) t.phase) t.queue = _
    rw [hthrough, hall t.queue hqueue]
    rfl

/-! ## Settled terminals -/

/-- The worker has nothing to do, or refuses all tasks. -/
def Settled (t : Terminal) : Prop :=
  t.queue = [] ∧ (t.phase = .arriving ∨ t.phase = .waiting) ∨ t.phase.isSealed = true

theorem foresee_of_resting
    (db : Database σ) (w : σ) {t : Terminal} (hqueue : t.queue = [])
    (hphase : t.phase = .arriving ∨ t.phase = .waiting) : t.foresee db w = (w, t.line) := by
  rcases hphase with hphase | hphase <;> simp [foresee, through, hqueue, hphase, submitAll]

/-- A settled terminal asks nothing of the database. -/
theorem Settled.foresee_eq
    {t : Terminal} (h : t.Settled) (db : Database σ) (w w' : σ) :
    t.foresee db w = (w, (t.foresee db w').2) := by
  rcases h with ⟨hqueue, hphase⟩ | hsealed
  · rw [foresee_of_resting db w hqueue hphase, foresee_of_resting db w' hqueue hphase]
  · rw [foresee_of_isSealed db w hsealed, foresee_of_isSealed db w' hsealed]

/-- A settled worker stays settled, and leaves the database alone. -/
theorem Settled.works
    {db : Database σ} {w w' : σ} {t t' : Terminal} {deeds : List Deed} (h : t.Settled)
    (hworks : Works db w t deeds w' t') (hhandles : t.handles ≠ 0) : w' = w ∧ t'.Settled := by
  rcases h with ⟨hqueue, hphase⟩ | hsealed
  · cases hworks with
    | arrive => exact ⟨rfl, Or.inl ⟨hqueue, Or.inr rfl⟩⟩
    | take _ queue => simp [hqueue] at queue
    | desert _ _ handles => exact absurd handles hhandles
    | _ => simp_all
  · cases hworks with
    | drop => exact ⟨rfl, Or.inr rfl⟩
    | _ => simp_all [Phase.isSealed]

/-- What callers read on a settled terminal is what it foretells. -/
theorem Settled.read
    {t : Terminal} (h : t.Settled) (hserving : t.Serving) (db : Database σ) (w : σ) :
    (∀ name, t.rows name = (t.foresee db w).2.rows name) ∧
      t.code = .int (t.foresee db w).2.code.number := by
  rcases h with ⟨hqueue, hphase⟩ | hsealed
  · rw [foresee_of_resting db w hqueue hphase]
    exact ⟨fun _ => rfl, rfl⟩
  · rw [foresee_of_isSealed db w hsealed]
    refine ⟨fun _ => rfl, ?_⟩
    have hcode : t.last.code = .error := by
      refine hserving.lost (Phase.isExit_of_isSealed hsealed) ?_
      intro hphase
      simp [hphase, Phase.isSealed] at hsealed
    rw [code, hcode]
    rfl

end Terminal
end CaseSuite
