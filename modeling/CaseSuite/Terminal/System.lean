import CaseSuite.Terminal.Call
import CaseSuite.Terminal.Worker

/-!
# Terminals side by side

A system is a database with terminals and with callers that work on them. Any worker or caller that
has a step may move next; a schedule is a list of movers. Settling is one schedule: workers and
callers go on until none of them can.
-/

namespace CaseSuite.Terminal

variable {σ : Type}

/-- Terminals and callers over one database. -/
structure System (σ : Type) where
  world : σ
  terminals : List Terminal := []
  callers : List Caller := []

/-- Who moves. -/
inductive Mover where
  | worker (terminal : Nat)
  | caller (index : Nat)
  deriving DecidableEq, Repr

namespace System

/-- The system after one step of a mover, if the mover has one. -/
def move (db : Database σ) (s : System σ) : Mover → Option (System σ)
  | .worker i => do
      let t ← s.terminals[i]?
      let (world, t) ← t.workerStep db s.world
      return { s with world, terminals := s.terminals.set i t }
  | .caller j => do
      let c ← s.callers[j]?
      let (terminals, c) ← c.step s.terminals
      return { s with terminals, callers := s.callers.set j c }

/-- The system after a schedule, if every mover in it can move in its turn. -/
def runSchedule (db : Database σ) (s : System σ) : List Mover → Option (System σ)
  | [] => some s
  | mover :: movers => do
      let s ← s.move db mover
      s.runSchedule db movers

/-- Let callers go on one after the other. -/
def runCallers (ts : List Terminal) : List Caller → List Terminal × List Caller
  | [] => (ts, [])
  | c :: cs =>
      let (ts, c) := c.run ts
      let (ts, cs) := runCallers ts cs
      (ts, c :: cs)

/-- Let every caller go on, then every worker. -/
def round (db : Database σ) (held : String → Bool) (s : System σ) : System σ :=
  let (terminals, callers) := runCallers s.terminals s.callers
  let (world, terminals) := settleAll db held s.world terminals
  { world, terminals, callers }

/-- Let everybody go on for a number of rounds. -/
def rounds (db : Database σ) (held : String → Bool) : Nat → System σ → System σ
  | 0, s => s
  | n + 1, s => rounds db held n (s.round db held)

/-- The calls that have not returned yet. -/
def openCalls (s : System σ) : Nat :=
  s.callers.foldr (fun c calls => c.todo.length + (if c.current.isSome then 1 else 0) + calls) 0

/--
Let everybody go on until nobody can. Each round in which a blocked caller goes on returns a call,
so one more round than there are open calls is enough.
-/
def settle (db : Database σ) (held : String → Bool) (s : System σ) : System σ :=
  rounds db held (s.openCalls + 1) s

end System

end CaseSuite.Terminal
