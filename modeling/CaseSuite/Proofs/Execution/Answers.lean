import CaseSuite.CaseFile.Basic
import CaseSuite.Proofs.Execution.Runtime
import CaseSuite.Proofs.Execution.Scripted

/-!
# What a request reads

When nothing is pending on a terminal, its worker has run all that it was given, or the database did
not survive one of the queries.  `Due` is the state of a terminal in which the tasks of a request
were the last to be given.  Over the scripted database a request that is due reads its own answer:
earlier rows, an earlier fetch under the same name and an earlier return code do not show.
-/

namespace CaseSuite

open Terminal (Call Ledger Round Stage Task rowsValue)

/-- What the script answers to a request: the rows if they are asked for, and else the return code.
A query that the database does not survive has no rows. -/
def Script.answer? (s : Script) (r : Request) : Option Value :=
  match r.fetch, s.response r.query with
  | true, .rows rows => some (.list (rows.map .list))
  | true, .crash _ => none
  | true, .done | true, .warning _ | true, .error _ => some (.list [])
  | false, .done | false, .rows _ => some (.int 0)
  | false, .warning _ => some (.int 1)
  | false, .error _ | false, .crash _ => some (.int 2)

/-- The return code that a query leaves. -/
def Response.code : Response → Terminal.ReturnCode
  | .done | .rows _ => .success
  | .warning _ => .warning
  | .error _ | .crash _ => .error

theorem Script.answer?_code
    {s : Script} {r : Request} {v : Value} (hfetch : r.fetch = false) (h : s.answer? r = some v) :
    v = .int (s.response r.query).code.number := by
  unfold answer? at h
  rw [hfetch] at h
  cases hresponse : s.response r.query <;> rw [hresponse] at h <;> cases h <;> rfl

theorem Script.answer?_rows
    {s : Script} {r : Request} {v : Value} (hfetch : r.fetch = true) (h : s.answer? r = some v) :
    v = rowsValue (s.rowsOf r.query) ∧ ∀ message, s.response r.query ≠ .crash message := by
  unfold answer? at h
  rw [hfetch] at h
  unfold rowsOf
  cases hresponse : s.response r.query <;> rw [hresponse] at h <;> cases h <;> simp [rowsValue]

/-- A query decides the return code, whatever it was before. -/
theorem Script.code_verdict
    (s : Script) (query : String) (v : Terminal.Verdict) :
    (Round.verdict v (.execute query (s.reply query))).code = (s.response query).code := by
  unfold reply
  cases s.response query <;> rfl

/-- The tasks of a request. -/
def Request.tasks (r : Request) : List Task :=
  [Task.execute r.query] ++ if r.fetch then [Task.fetch (Case.Run.resultName r.target)] else []

namespace Case

variable {σ : Type}

/-! ## A terminal with nothing pending -/

section Drained

variable {t : Terminal} {stages : Multiset Stage} {i : Nat} {h : List Happening} {script : Script}

/-- A task that was sent was given. -/
theorem Tended.mem_given
    (htended : Tended t stages i h) {task : Task} (htask : task ∈ (ledgerOn i h).taken) :
    task ∈ givenOn i h := by
  obtain ⟨carried, -, hgiven⟩ := htended.handed.given
  have hsent := htended.accounted.orderly.taken_prefix.subset htask
  rw [hgiven]
  exact List.mem_append_left _ (List.mem_append_left _ hsent)

/-- Where nothing is pending and the worker takes tasks, all that was given has run. -/
theorem Tended.settled
    (htended : Tended t stages i h) (hquiet : ∀ stage ∈ stages, stage.isQuiet = true)
    (hpending : t.pending = 0) (hopen : t.closed = false) :
    (ledgerOn i h).completed.map Round.task = givenOn i h ∧
      (ledgerOn i h).rounds = (ledgerOn i h).completed ∧ t.last = (ledgerOn i h).verdict ∧
      ∀ name rows, (ledgerOn i h).fetched name = some (.done rows) →
        t.rows name = .ok (rowsValue rows) := by
  have horderly := htended.accounted.orderly
  obtain ⟨hqueue, htaken, hsent⟩ := horderly.completed_of_pending_zero hopen hpending
  have hready := horderly.ready_of_taken_eq htaken htended.deserted
  obtain ⟨-, hlast, hrows⟩ := Terminal.System.settled_of_resting horderly
    ⟨hready, hqueue, htended.handles⟩ hquiet
  have hcurrent : (ledgerOn i h).current = none := by
    rcases hready with hphase | hphase
    · exact (horderly.standing_of hphase).2.1
    · exact (horderly.standing_of hphase).2.1
  refine ⟨?_, by simp [Ledger.rounds, hcurrent], hlast, hrows⟩
  -- nothing was refused, and no call has a task on its way
  obtain ⟨carried, hcarries, hgiven⟩ := htended.handed.given
  have hrejected : (ledgerOn i h).rejected = [] := by
    by_contra hrejected
    simp [horderly.rejected hrejected] at hopen
  have hcarried : carried = [] := by
    cases hcarries with
    | idle => rfl
    | busy stage =>
        have hstage := hquiet stage (Multiset.mem_singleton_self stage)
        rw [Stage.isQuiet, Bool.and_eq_true] at hstage
        exact Stage.held_of_isIdle hstage.1
  rw [hgiven, hrejected, hcarried, List.append_nil, List.append_nil, hsent]
  rfl

/-- Where the worker refuses tasks though nobody told it to leave, the database did not survive a
query, and the last result is an error. -/
theorem Tended.lost
    (htended : Tended t stages i h) (hclosed : t.closed = true)
    (hshutdown : .shutdown ∉ givenOn i h)
    {rows : List Row} (htells : script.Tells (ledgerOn i h).rounds rows)
    (hdeparting : ∃ panicked, (ledgerOn i h).Departing panicked t.last t.phase) :
    (∃ query message, .execute query ∈ givenOn i h ∧ script.response query = .crash message) ∧
      t.last.code = .error := by
  have hsealed := htended.accounted.orderly.closed_iff.mp hclosed
  have hleaving := htended.accounted.leaving.of_isSealed hsealed
  have hretired : ¬ (ledgerOn i h).Retired := by
    rintro ⟨-, ⟨hdeserted, -⟩ | htaken⟩
    · simp [htended.deserted] at hdeserted
    · exact hshutdown (htended.mem_given (by simp [htaken]))
  obtain ⟨round, hcurrent, hcrash, htaken⟩ := hleaving.resolve_left hretired
  have hround : round ∈ (ledgerOn i h).rounds := by simp [Ledger.rounds, hcurrent]
  obtain ⟨query, message, htask, hresponse⟩ := htells.response_of_isCrash hround hcrash
  refine ⟨⟨query, message, htended.mem_given (by simp [htaken, htask]), hresponse⟩, ?_⟩
  obtain ⟨panicked, hdeparting⟩ := hdeparting
  rw [Ledger.departing_iff_of_isSealed hsealed] at hdeparting
  rw [hdeparting.1, Ledger.code_farewell]
  right
  left
  by_contra hpanicked
  exact hretired (hdeparting.2 (by simpa using hpanicked))

/-- Rounds whose last task is a query end with its round. -/
theorem exists_round
    {rounds : List Round} {tasks : List Task} {query : String}
    (h : rounds.map Round.task = tasks ++ [Task.execute query]) :
    ∃ earlier reply, rounds = earlier ++ [Round.execute query reply] := by
  obtain ⟨earlier, last, rfl, -, hlast⟩ := List.map_eq_append_iff.mp h
  obtain ⟨round, rfl, htask⟩ := List.map_eq_singleton_iff.mp hlast
  cases round with
  | execute other reply =>
      cases htask
      exact ⟨earlier, reply, rfl⟩
  | fetch name reply => cases htask

/-- Rounds whose last tasks are a query and a fetch end with their two rounds. -/
theorem exists_rounds
    {rounds : List Round} {tasks : List Task} {query name : String}
    (h : rounds.map Round.task = tasks ++ [Task.execute query] ++ [Task.fetch name]) :
    ∃ earlier reply fetched,
      rounds = earlier ++ [Round.execute query reply] ++ [Round.fetch name fetched] := by
  obtain ⟨before, last, rfl, hbefore, hlast⟩ := List.map_eq_append_iff.mp h
  obtain ⟨earlier, reply, rfl⟩ := exists_round hbefore
  obtain ⟨round, rfl, htask⟩ := List.map_eq_singleton_iff.mp hlast
  cases round with
  | execute other reply => cases htask
  | fetch other fetched =>
      cases htask
      exact ⟨earlier, reply, fetched, rfl⟩

/-- What is known of a terminal and its history when a request is about to read its answer. -/
structure Due (script : Script) (r : Request) (given : List Task) (t : Terminal)
    (stages : Multiset Stage) (i : Nat) (h : List Happening) : Prop where
  tended : Tended t stages i h
  quiet : ∀ stage ∈ stages, stage.isQuiet = true
  drained : t.pending = 0
  stays : .shutdown ∉ givenOn i h
  tells : ∃ rows, script.Tells (ledgerOn i h).rounds rows
  departing : ∃ panicked, (ledgerOn i h).Departing panicked t.last t.phase
  handed : givenOn i h = given ++ r.tasks
  /-- The database survives the queries that were given before. -/
  safe : ∀ query message, .execute query ∈ given → script.response query ≠ .crash message

namespace Due

variable {r : Request} {given : List Task}

/-- If the worker was lost, it was lost with the query of the request. -/
theorem lost
    (hdue : Due script r given t stages i h) (hclosed : t.closed = true) :
    (∃ message, script.response r.query = .crash message) ∧ t.last.code = .error := by
  obtain ⟨rows, htells⟩ := hdue.tells
  obtain ⟨⟨query, message, hquery, hresponse⟩, hcode⟩ :=
    hdue.tended.lost hclosed hdue.stays htells hdue.departing
  refine ⟨⟨message, ?_⟩, hcode⟩
  rw [hdue.handed] at hquery
  rcases List.mem_append.mp hquery with hearlier | hown
  · exact absurd hresponse (hdue.safe query message hearlier)
  · obtain rfl : query = r.query := by simpa [Request.tasks] using hown
    exact hresponse

theorem code
    (hdue : Due script r given t stages i h) (hfetch : r.fetch = false) :
    t.last.code = (script.response r.query).code := by
  by_cases hclosed : t.closed = true
  · obtain ⟨⟨message, hresponse⟩, hcode⟩ := hdue.lost hclosed
    rw [hcode, hresponse]
    rfl
  · obtain ⟨htasks, hrounds, hlast, -⟩ :=
      hdue.tended.settled hdue.quiet hdue.drained (by simpa using hclosed)
    obtain ⟨rows, htells⟩ := hdue.tells
    rw [hdue.handed, Request.tasks, hfetch] at htasks
    obtain ⟨earlier, reply, hcompleted⟩ := exists_round (by simpa using htasks)
    rw [hrounds, hcompleted] at htells
    obtain ⟨rfl, -⟩ := htells.of_execute
    rw [hlast, Ledger.verdict, hcompleted, List.foldl_append]
    exact script.code_verdict r.query _

theorem rows
    (hdue : Due script r given t stages i h) (hfetch : r.fetch = true)
    (hsurvives : ∀ message, script.response r.query ≠ .crash message) :
    t.rows (Run.resultName r.target) = .ok (rowsValue (script.rowsOf r.query)) := by
  by_cases hclosed : t.closed = true
  · obtain ⟨⟨message, hresponse⟩, -⟩ := hdue.lost hclosed
    exact absurd hresponse (hsurvives message)
  · obtain ⟨htasks, hrounds, -, hrows⟩ :=
      hdue.tended.settled hdue.quiet hdue.drained (by simpa using hclosed)
    obtain ⟨rows, htells⟩ := hdue.tells
    rw [hdue.handed, Request.tasks, hfetch] at htasks
    obtain ⟨earlier, reply, fetched, hcompleted⟩ := exists_rounds (by simpa using htasks)
    rw [hrounds, hcompleted] at htells
    obtain ⟨left, hbefore, rfl⟩ := htells.of_fetch
    obtain ⟨-, rfl⟩ := hbefore.of_execute
    apply hrows
    rw [Ledger.fetched, hrounds, hcompleted]
    simp [Round.fetched?]

/-- The request reads its own answer. -/
theorem reads
    (hdue : Due script r given t stages i h) {v : Value} (hanswer : script.answer? r = some v) :
    t.callStep (Run.answerCall r).stage = some (t, .done (.value v)) := by
  unfold Run.answerCall
  by_cases hfetch : r.fetch = true
  · obtain ⟨rfl, hsurvives⟩ := Script.answer?_rows hfetch hanswer
    rw [if_pos hfetch, Call.stage, Terminal.callStep, hdue.rows hfetch hsurvives]
    rfl
  · have hcode := hdue.code (by simpa using hfetch)
    rw [Script.answer?_code (by simpa using hfetch) hanswer, if_neg hfetch, Call.stage,
      Terminal.callStep, Terminal.code, hcode]

end Due

end Drained

end Case

end CaseSuite
