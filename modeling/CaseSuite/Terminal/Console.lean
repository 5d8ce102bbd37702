import CaseSuite.Memory
import CaseSuite.Terminal.System

/-!
# A console

A console drives terminals over the scripted database by hand: it starts them under names, makes
calls on their handles and holds queries back to look at what happens meanwhile.
-/

namespace CaseSuite.Terminal

/-- Terminals with named handles, a registry and the queries that are held back. -/
structure Console where
  env : Environment
  system : System Memory
  held : List String := []
  /-- The terminal of each handle. -/
  handles : List (String × Nat) := []
  /-- Registered terminals, the oldest first. -/
  registry : List Nat := []

namespace Console

/-- A console over a scripted database. -/
def new (env : Environment) (script : Script) (held : List String) : Console where
  env := env
  system := { world := { script } }
  held := held

/-- Let everybody go on until nobody can. -/
def settle (c : Console) : Console :=
  { c with system := c.system.settle Memory.database c.held.contains }

/-- The terminal with a number. -/
def terminal? (c : Console) (i : Nat) : Option Terminal := c.system.terminals[i]?

/-- The terminal of a handle. -/
def handle? (c : Console) (name : String) : Option Nat := c.handles.lookup name

/-- Replace a terminal. -/
def setTerminal (c : Console) (i : Nat) (t : Terminal) : Console :=
  { c with system := { c.system with terminals := c.system.terminals.set i t } }

/--
Go through the stages of a call. Everybody else goes on only when the call is blocked; if it is
blocked even then there is no answer.
-/
def performFrom (c : Console) (i : Nat) (stage : Stage) : Option Answer × Console :=
  match c.terminal? i with
  | none => (none, c)
  | some t =>
      match _h : t.callStep stage with
      | some (t', .goOn next) => performFrom (c.setTerminal i t') i next
      | some (t', .done answer) => (some answer, c.setTerminal i t')
      | none =>
          let c := c.settle
          match c.terminal? i with
          | none => (none, c)
          | some t =>
              match _h : t.callStep stage with
              | some (t', .goOn next) => performFrom (c.setTerminal i t') i next
              | some (t', .done answer) => (some answer, c.setTerminal i t')
              | none => (none, c)
termination_by stage.work
decreasing_by
  · exact work_lt_of_callStep _h
  · exact work_lt_of_callStep _h

/-- Make a call on a terminal. -/
def perform (c : Console) (i : Nat) (call : Call) : Option Answer × Console :=
  c.performFrom i call.stage

/-- Make a call whose answer is of no interest. -/
def ask (c : Console) (i : Nat) (call : Call) : Console := (c.perform i call).2

/-- Bind a handle; the one that had its name is given up. -/
def bind (c : Console) (name : String) (i : Nat) : Console :=
  let bound := { c with handles := (name, i) :: c.handles.filter (·.1 != name) }
  match c.handle? name with
  | some old => bound.ask old .drop
  | none => bound

/-- Start a terminal under a handle. -/
def start (c : Console) (name handle : String) : Except Failure Nat × Console :=
  match Terminal.start Memory.database c.env c.system.world name with
  | (.error e, world) => (.error e, { c with system := { c.system with world } })
  | (.ok t, world) =>
      let i := c.system.terminals.length
      let started :=
        { c with system := { c.system with world, terminals := c.system.terminals ++ [t] } }
      (.ok i, started.bind handle i)

/-- Start a terminal that the registry keeps a handle of. -/
def register (c : Console) (name handle : String) : Except Failure Nat × Console :=
  match c.start name handle with
  | (.error e, c) => (.error e, c)
  | (.ok i, c) =>
      let kept := c.ask i .duplicate
      (.ok i, { kept with registry := kept.registry ++ [i] })

/-- Make a second handle of a terminal. -/
def duplicate (c : Console) (i : Nat) (handle : String) : Console :=
  (c.ask i .duplicate).bind handle i

/-- Give a handle up. -/
def drop (c : Console) (handle : String) : Console :=
  match c.handle? handle with
  | some i => ({ c with handles := c.handles.filter (·.1 != handle) }.ask i .drop).settle
  | none => c

/-- Hold a query back no longer. -/
def release (c : Console) (query : String) : Console :=
  { c with held := c.held.filter (· != query) }

/-- Add to the script and to the queries that are held back. -/
def extend (c : Console) (script : Script) (held : List String) : Console :=
  let world := { c.system.world with script := c.system.world.script.extend script }
  { c with system := { c.system with world }, held := held ++ c.held }

/-- The query `stem` with a number. -/
def numbered (stem : String) (n : Nat) : String := stem ++ Nat.repr n

/--
Let another caller execute numbered queries one after the other on a handle of its own, and tell how
many of these calls have returned when nobody can go on.
-/
def fill (c : Console) (i : Nat) (stem : String) (n : Nat) : Nat × Console :=
  let c := c.ask i .duplicate
  let calls := (List.range n).map fun k => (i, Call.execute (numbered stem k))
  let caller : Caller := { todo := calls ++ [(i, .drop)] }
  let system := { c.system with callers := c.system.callers ++ [caller] }
  let settled := { c with system }.settle
  let returned := (settled.system.callers.getLast?.map fun c => c.answers.length).getD 0
  (min returned n, settled)

/-- Make the same call on several terminals in order. -/
def askAll (c : Console) (call : Call) (is : List Nat) : Console :=
  is.foldl (fun c i => c.ask i call) c

/-- Close all registered terminals, then join all of them, and tell their names. -/
def teardown (c : Console) : List String × Console :=
  let is := c.registry
  let names := is.filterMap fun i => (c.terminal? i).map Terminal.name
  let ended := ((c.askAll .close is).askAll .join is).askAll .drop is
  (names, { ended with registry := [] })

end Console

end CaseSuite.Terminal
