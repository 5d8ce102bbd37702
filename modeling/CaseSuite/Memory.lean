import CaseSuite.Terminal.Database

/-!
# A scripted database in memory

Queries get the answers of a script, and everything the database is asked to do is recorded with the
connection it happened on.
-/

namespace CaseSuite

/-- What the script says about a call. -/
inductive Response where
  | done
  | rows (rows : List Row)
  | warning (message : String)
  | error (message : String)
  | crash (message : String)
  deriving Repr

/-- How a response makes a call fail, if it does. -/
def Response.failure? {α : Type} : Response → Option (Reply α)
  | done | rows _ => none
  | warning message => some (.refused (.warning message))
  | error message => some (.refused (.error message))
  | crash message => some (.crashed message)

/-- What the database was asked to do. -/
inductive Event where
  | connect (config : String) (autoCommit : Bool)
  | execute (query : String)
  | fetch
  | close
  deriving DecidableEq, Repr

/-- The answers of the database; of two answers to one query the first counts. -/
structure Script where
  responses : List (String × Response) := []
  /-- How a fetch fails after a query. -/
  fetches : List (String × Response) := []
  /-- How closing a connection fails. -/
  closing : Option Response := none
  /-- How connecting fails once so many connections are open. -/
  refusal : Option (Nat × Response) := none
  deriving Repr

/-- Add answers in front of a script. -/
def Script.extend (s more : Script) : Script where
  responses := more.responses ++ s.responses
  fetches := more.fetches ++ s.fetches
  closing := more.closing <|> s.closing
  refusal := more.refusal <|> s.refusal

/-- One connection: the rows not yet fetched and the last query. -/
structure Session where
  rows : List Row
  query : Option String
  deriving Repr

/-- The database: its script, its connections in order and what happened on them. -/
structure Memory where
  script : Script := {}
  sessions : List Session := []
  log : List (Nat × Event) := []
  deriving Repr

namespace Memory

/-- Record an event. -/
def record (m : Memory) (connection : Nat) (e : Event) : Memory :=
  { m with log := m.log ++ [(connection, e)] }

/-- The state of a connection. -/
def session (m : Memory) (connection : Nat) : Session :=
  m.sessions[connection]?.getD ⟨[], none⟩

/-- Change the state of a connection. -/
def setSession (m : Memory) (connection : Nat) (s : Session) : Memory :=
  { m with sessions := m.sessions.set connection s }

/-- How a new connection is refused. -/
def refusal? (m : Memory) : Option (Reply Nat) :=
  match m.script.refusal with
  | some (limit, response) => if limit ≤ m.sessions.length then response.failure? else none
  | none => none

/-- Open a connection; a refused one leaves no trace. -/
def connect (m : Memory) (config : String) (autoCommit : Bool) : Reply Nat × Memory :=
  match m.refusal? with
  | some reply => (reply, m)
  | none =>
      let connection := m.sessions.length
      let opened := { m with sessions := m.sessions ++ [Session.mk [] none] }
      (.done connection, opened.record connection (.connect config autoCommit))

/-- Run a query: the rows of the one before it are forgotten. -/
def execute (m : Memory) (connection : Nat) (query : String) : Reply Unit × Memory :=
  let response := (m.script.responses.lookup query).getD .done
  let rows := match response with
    | .rows rows => rows
    | _ => []
  (response.failure?.getD (.done ()),
    (m.record connection (.execute query)).setSession connection ⟨rows, some query⟩)

/-- Take the rows of the last query. -/
def fetch (m : Memory) (connection : Nat) : Reply (List Row) × Memory :=
  let s := m.session connection
  let failure := s.query.bind fun query =>
    (m.script.fetches.lookup query).bind Response.failure?
  (failure.getD (.done s.rows),
    (m.record connection .fetch).setSession connection { s with rows := [] })

/-- Close a connection. -/
def close (m : Memory) (connection : Nat) : Reply Unit × Memory :=
  ((m.script.closing.bind Response.failure?).getD (.done ()), m.record connection .close)

/-- The scripted database. -/
def database : Database Memory where
  connect := connect
  execute := execute
  fetch := fetch
  close := close

/-- What happened on one connection. -/
def eventsOf (m : Memory) (connection : Nat) : List Event :=
  m.log.filterMap fun (id, e) => if id = connection then some e else none

/-- What happened on each connection, in the order in which they were opened. -/
def events (m : Memory) : List (List Event) :=
  (List.range m.sessions.length).map m.eventsOf

/-- The queries in the order in which they ran. -/
def queries (m : Memory) : List String :=
  m.log.filterMap fun (_, e) =>
    match e with
    | .execute query => some query
    | _ => none

/-- The queries, sorted if several connections ran them side by side. -/
def executed (m : Memory) : List String :=
  if 1 < m.sessions.length then m.queries.mergeSort fun a b => !(b < a) else m.queries

/-- The connections that were closed, in ascending order. -/
def closed (m : Memory) : List Nat :=
  (m.log.filterMap fun (id, e) => if e = .close then some id else none).mergeSort

end Memory

end CaseSuite
