import CaseSuite.Terminal.Database

/-!
# Terminals

A terminal is a connection with a worker that runs tasks from a bounded queue, one after the other.
Callers and the worker share a status, the last result, the stored result sets and the count of
pending tasks. Everything that two threads can see is a field here, and every step of a thread
changes what one lock guards, or sends, or receives.
-/

namespace CaseSuite

namespace Terminal

/-- How many tasks may wait in a queue. -/
def queueCapacity : Nat := 20

/-- What a worker is asked to do. -/
inductive Task where
  | shutdown
  | execute (query : String)
  /-- Fetch the rows of the last query and store them under a name. -/
  | fetch (name : String)
  deriving DecidableEq, Repr

/-- What a worker says it is doing. -/
inductive Status where
  | notStarted
  | waiting
  | executing
  | shutDown
  deriving DecidableEq, Repr

/-- The weight of a result. -/
inductive ReturnCode where
  | success
  | warning
  | error
  deriving DecidableEq, Repr

/-- A return code as a case sees it. -/
def ReturnCode.number : ReturnCode → Int64
  | success => 0
  | warning => 1
  | error => 2

/-- The result of the last task that had one. -/
structure Verdict where
  code : ReturnCode
  message : String
  deriving DecidableEq, Repr

namespace Verdict

/-- The result of a query that went well. -/
def success : Verdict := ⟨.success, ""⟩

/-- The result when the terminal itself fails. -/
def failure (message : String) : Verdict := ⟨.error, message⟩

/-- The result of a call that the database refused. -/
def ofDiagnostic : Diagnostic → Verdict
  | .warning message => ⟨.warning, message⟩
  | .error message => ⟨.error, message⟩

/-- The result of a task that comes too late. -/
def shutDown : Verdict := failure "terminal shut down"

/-- The result of losing the worker. -/
def crashed : Verdict := failure "terminal worker panicked"

end Verdict

/-- A stored result set, from the request for it on. -/
inductive Stored where
  | notReady
  | ready (rows : Value)
  deriving Repr

/-- Rows as a value. -/
def rowsValue (rows : List Row) : Value := .list (rows.map .list)

/-- What a worker does next. -/
inductive Phase where
  /-- Announce that it waits. -/
  | arriving
  /-- Take a task from the queue. -/
  | waiting
  /-- Announce the task it took. -/
  | starting (task : Task)
  /-- Forget the last result before a query. -/
  | clearing (query : String)
  | executing (query : String)
  | fetching (name : String)
  | storing (name : String) (rows : Value)
  /-- Record what the database reported. -/
  | reporting (diagnostic : Diagnostic)
  /-- Count the task as done. -/
  | finishing
  /-- Close the connection. -/
  | closing
  /-- Record that the worker is lost. -/
  | crashing
  /-- Announce that it has shut down. -/
  | leaving
  /-- Refuse all further tasks and release everyone who waits. -/
  | sealing
  /-- Drop the queue with what is left in it. -/
  | dropping
  | gone
  deriving Repr

end Terminal

open Terminal in
/-- A terminal and its worker. -/
structure Terminal where
  name : String
  connection : Nat
  status : Status := .notStarted
  last : Verdict := .success
  /-- Stored result sets, the latest first. -/
  results : List (String × Stored) := []
  /-- How many tasks are counted and not yet done. -/
  pending : Nat := 0
  /-- The worker takes no further task. -/
  closed : Bool := false
  /-- Tasks that were sent and not yet taken, the oldest first. -/
  queue : List Task := []
  /-- How many handles can still send tasks. -/
  handles : Nat := 1
  /-- Nobody has joined the worker yet. -/
  joinable : Bool := true
  phase : Phase := .arriving
  deriving Repr

namespace Terminal

/-- The stored result set of a name. -/
def result? (t : Terminal) (name : String) : Option Stored := t.results.lookup name

/-- Store a result set under a name. -/
def store (t : Terminal) (name : String) (s : Stored) : Terminal :=
  { t with results := (name, s) :: t.results }

/-- Count one task as done; a count of zero stays. -/
def finish (t : Terminal) : Terminal := { t with pending := t.pending - 1 }

/-- The worker has exited and its queue is gone. -/
def isGone (t : Terminal) : Bool :=
  match t.phase with
  | .gone => true
  | _ => false

/-- The rows stored under a name. -/
def rows (t : Terminal) (name : String) : Except RunError Value :=
  match t.result? name with
  | some (.ready rows) => .ok rows
  | some .notReady => .error (.resultNotReady t.name name)
  | none => .error (.missingResult t.name name)

/-- The code of the last result. -/
def code (t : Terminal) : Value := .int t.last.code.number

/-- Connect and start a worker; a crash while connecting is a crash of the caller. -/
def start {σ : Type} (db : Database σ) (env : Environment) (w : σ) (name : String) :
    Except Failure Terminal × σ :=
  match db.connect w env.config env.autoCommit with
  | (.done connection, w) => (.ok { name, connection }, w)
  | (.refused d, w) => (.error (.run (.connect name d)), w)
  | (.crashed message, w) => (.error (.crash message), w)

end Terminal

end CaseSuite
