import CaseSuite.Proofs.Execution.Scripted
import CaseSuite.Proofs.Terminal.Barrier
import Mathlib

/-!
# The log of a scripted database

All terminals over one scripted database write into one log, in whatever order their workers come
to it.  What the log has of one connection is still in order: the connection is opened, then the
rounds of its worker follow, and after them the connection may be closed.  Connections are numbered
as they are opened, and one that is refused leaves no trace.  Terminals may be started, called from
anywhere and given new answers at any time.
-/

namespace CaseSuite

open Terminal (Accounted Advances Call Caller Deed Ledger Mover Phase Round Stage System Task Visit
  Works)

/-! ## What can happen -/

/-- One thing that can happen to terminals over a scripted database. -/
inductive Occurrence where
  /-- A worker or a caller makes a step. -/
  | moved (mover : Mover)
  /-- Somebody starts a terminal. -/
  | started (env : Environment) (name : String)
  /-- Somebody comes to make calls on terminals that there are. -/
  | entered (calls : List (Nat × Call))
  /-- The database gets another script. -/
  | scripted (script : Script)

namespace Terminal.System

/-- The terminals after an occurrence, if it is possible. -/
def occur (s : System Memory) : Occurrence → Option (System Memory)
  | .moved mover => s.move Memory.database mover
  | .started env name =>
      match Terminal.start Memory.database env s.world name with
      | (.error _, world) => some { s with world }
      | (.ok t, world) => some { s with world, terminals := s.terminals ++ [t] }
  | .entered calls =>
      if calls.all (·.1 < s.terminals.length) then
        some { s with callers := s.callers ++ [{ todo := calls }] }
      else none
  | .scripted script => some { s with world := { s.world with script } }

/-- The terminals after occurrences, if each is possible in its turn. -/
def occurAll (s : System Memory) (os : List Occurrence) : Option (System Memory) :=
  os.foldlM occur s

/-- What an occurrence does on a terminal. -/
def deedsBy (s : System Memory) (i : Nat) : Occurrence → List Deed
  | .moved mover => s.deedsOn Memory.database i mover
  | .started _ _ | .entered _ | .scripted _ => []

/-- What occurrences do on a terminal. -/
def chronicle (s : System Memory) (i : Nat) : List Occurrence → List Deed
  | [] => []
  | o :: os =>
      match s.occur o with
      | some s' => s.deedsBy i o ++ s'.chronicle i os
      | none => []

end Terminal.System

/-- The task that a deed puts into the queue. -/
def Terminal.Deed.sent? : Deed → Option Task
  | .sent task => some task
  | _ => none

/-- The tasks that are queued on a terminal by occurrences. -/
def Terminal.System.queued (s : System Memory) (i : Nat) (os : List Occurrence) : List Task :=
  (s.chronicle i os).filterMap Deed.sent?

theorem Terminal.Ledger.sent_recordAll
    (l : Ledger) (deeds : List Deed) :
    (l.recordAll deeds).sent = l.sent ++ deeds.filterMap Deed.sent? := by
  induction deeds generalizing l with
  | nil => simp
  | cons d deeds ih =>
      have hrest : l.recordAll (d :: deeds) = (l.record d).recordAll deeds := rfl
      rw [hrest, ih]
      cases d with
      | sent task => simp [Ledger.record, Deed.sent?]
      | _ => rfl

/-! ## What is recorded -/

/-- What the database records of a task. -/
def Terminal.Task.event : Task → Event
  | .execute query => .execute query
  | .fetch _ => .fetch
  | .shutdown => .close

/-- What the database records of the next step of a worker. -/
def Terminal.events (t : Terminal) (deeds : List Deed) : List Event :=
  (deeds.filterMap Deed.round?).map (·.task.event) ++
    match t.phase with
    | .closing => [.close]
    | _ => []

namespace Memory

variable {m m' : Memory}

/-- The connection that an entry of the log opens. -/
def opened? : Nat × Event → Option Nat
  | (connection, .connect _ _) => some connection
  | _ => none

theorem eventsOf_of_log
    {connection : Nat} {events : List Event}
    (h : m'.log = m.log ++ events.map (connection, ·)) (id : Nat) :
    m'.eventsOf id = m.eventsOf id ++ if connection = id then events else [] := by
  rw [eventsOf, eventsOf, h, List.filterMap_append, List.filterMap_map]
  by_cases hid : connection = id
  · simp [hid]
  · simp [hid]

theorem works_log
    {t t' : Terminal} {deeds : List Deed} (h : Works database m t deeds m' t') :
    m'.log = m.log ++ (t.events deeds).map (t.connection, ·) := by
  cases h with
  | execute hphase answer =>
      cases answer
      simp [Terminal.events, Deed.round?, hphase, Round.task, Task.event, setSession, record]
  | fetch hphase answer =>
      cases answer
      simp [Terminal.events, Deed.round?, hphase, Round.task, Task.event, setSession, record]
  | close hphase answer =>
      cases answer
      simp [Terminal.events, hphase, record]
  | _ hphase => simp [Terminal.events, Deed.round?, hphase]

/-- A worker opens no connection. -/
theorem opened_events
    (t : Terminal) (deeds : List Deed) (connection : Nat) :
    ((t.events deeds).map (connection, ·)).filterMap opened? = [] := by
  have hrecorded : ∀ e ∈ t.events deeds, opened? (connection, e) = none := by
    intro e he
    rcases List.mem_append.mp he with hround | hclosing
    · obtain ⟨round, -, rfl⟩ := List.mem_map.mp hround
      cases round <;> rfl
    · split at hclosing
      · obtain rfl := List.mem_singleton.mp hclosing
        rfl
      · cases hclosing
  rw [List.filterMap_map]
  exact List.filterMap_eq_nil_iff.mpr hrecorded

/-- A terminal that starts has opened a connection. -/
theorem connect_of_start
    {env : Environment} {name : String} {t : Terminal}
    (h : Terminal.start database env m name = (.ok t, m')) :
    ∃ connection, t = { name, connection } ∧
      database.connect m env.config env.autoCommit = (.done connection, m') := by
  unfold Terminal.start at h
  split at h
  · rename_i connection w hconnect
    cases h
    exact ⟨connection, rfl, hconnect⟩
  · cases h
  · cases h

/-- A connection that is opened is recorded under its number. -/
theorem connect_log
    {config : String} {autoCommit : Bool} {connection : Nat}
    (h : database.connect m config autoCommit = (.done connection, m')) :
    m'.log = m.log ++ [Event.connect config autoCommit].map (connection, ·) := by
  obtain ⟨-, -, hsessions⟩ := connect_done h
  change connect m config autoCommit = _ at h
  rcases hrefusal : m.refusal? with _ | reply
  · simp only [connect, hrefusal] at h
    cases h
    rfl
  · simp only [connect, hrefusal] at h
    cases h
    simp at hsessions

end Memory

namespace Terminal

/-- The worker has nothing more to ask of the database. -/
def Phase.isPast : Phase → Bool
  | .crashing | .leaving | .sealing | .dropping | .gone => true
  | _ => false

/-- What is recorded of a connection: it is opened, the rounds of its worker follow, and it may be
closed after them. -/
def Recorded (events : List Event) (rounds : List Round) (phase : Phase) : Prop :=
  ∃ config autoCommit closing,
    events = .connect config autoCommit :: rounds.map (·.task.event) ++ closing ∧
    (closing = [] ∨ closing = [.close] ∧ phase.isPast = true)

/-- A step of the worker is recorded behind what is recorded before. -/
theorem Recorded.work
    {σ : Type} {db : Database σ} {w w' : σ} {t t' : Terminal} {deeds : List Deed}
    {events : List Event} {rounds : List Round} (h : Recorded events rounds t.phase)
    (hworks : Works db w t deeds w' t') :
    Recorded (events ++ t.events deeds) (rounds ++ deeds.filterMap Deed.round?) t'.phase := by
  obtain ⟨config, autoCommit, closing, rfl, hclosing⟩ := h
  have hopen : t.phase.isPast = false → closing = [] := by
    intro hbefore
    rcases hclosing with hnone | ⟨-, hpast⟩
    · exact hnone
    · rw [hbefore] at hpast
      cases hpast
  have hquiet : t.events deeds = [] → deeds.filterMap Deed.round? = [] →
      (t.phase.isPast = true → t'.phase.isPast = true) →
      Recorded (.connect config autoCommit :: rounds.map (·.task.event) ++ closing ++
        t.events deeds) (rounds ++ deeds.filterMap Deed.round?) t'.phase := by
    intro hevents hrounds hpast
    rw [hevents, hrounds, List.append_nil, List.append_nil]
    exact ⟨config, autoCommit, closing, rfl, hclosing.imp_right (And.imp_right hpast)⟩
  cases hworks with
  | execute hphase =>
      obtain rfl := hopen (by rw [hphase]; rfl)
      refine ⟨config, autoCommit, [], ?_, Or.inl rfl⟩
      simp [Terminal.events, hphase, Deed.round?]
  | fetch hphase =>
      obtain rfl := hopen (by rw [hphase]; rfl)
      refine ⟨config, autoCommit, [], ?_, Or.inl rfl⟩
      simp [Terminal.events, hphase, Deed.round?]
  | close hphase =>
      rename_i reply _
      obtain rfl := hopen (by rw [hphase]; rfl)
      refine ⟨config, autoCommit, [.close], ?_, Or.inr ⟨rfl, ?_⟩⟩
      · simp [Terminal.events, hphase]
      · cases reply <;> rfl
  | crash hphase => exact hquiet (by simp [Terminal.events, hphase]) rfl fun _ => rfl
  | leave hphase => exact hquiet (by simp [Terminal.events, hphase]) rfl fun _ => rfl
  | refuse hphase => exact hquiet (by simp [Terminal.events, hphase]) rfl fun _ => rfl
  | drop hphase => exact hquiet (by simp [Terminal.events, hphase]) rfl fun _ => rfl
  | _ hphase =>
      refine hquiet (by simp [Terminal.events, hphase, Deed.round?]) rfl ?_
      rw [hphase]
      intro hpast
      cases hpast

/-- No round is a shutdown, so rounds end before one is queued. -/
theorem Accounted.rounds_before_shutdown
    {t : Terminal} {stages : Multiset Stage} {l : Ledger} (h : Accounted t stages l) :
    l.rounds.map Round.task <+: l.sent.takeWhile (· ≠ .shutdown) := by
  obtain ⟨rest, hsent⟩ := h.rounds_prefix_sent
  have hrounds : ∀ task ∈ l.rounds.map Round.task, decide (task ≠ .shutdown) = true := by
    intro task htask
    obtain ⟨round, -, rfl⟩ := List.mem_map.mp htask
    cases round <;> rfl
  rw [← hsent, List.takeWhile_append_of_pos hrounds]
  exact List.prefix_append _ _

/-- The terminals of the calls that a caller makes are among the first `n`. -/
structure Caller.Within (n : Nat) (c : Caller) : Prop where
  todo : ∀ x ∈ c.todo, x.1 < n
  current : ∀ i stage, c.current = some (i, stage) → i < n

theorem Caller.Within.step
    {n : Nat} {c c' : Caller} {ts ts' : List Terminal} (h : c.Within n)
    (hstep : c.step ts = some (ts', c')) : c'.Within n := by
  rcases Caller.step_cases hstep with
    ⟨k, call, todo, -, htodo, -, hcurrent, rfl⟩ |
    ⟨k, stage, t, t', p, hbusy, -, -, -, hcurrent, htodo⟩
  · have hcalls := h.todo
    rw [htodo] at hcalls
    refine ⟨fun x hx => hcalls x (List.mem_cons_of_mem _ hx), ?_⟩
    intro i stage hnext
    rw [hcurrent] at hnext
    cases hnext
    exact hcalls (k, call) List.mem_cons_self
  · refine ⟨htodo ▸ h.todo, ?_⟩
    intro i next hnext
    rw [hcurrent] at hnext
    cases p with
    | done answer => cases hnext
    | goOn stage' =>
        cases hnext
        exact h.current k stage hbusy

theorem Caller.Within.deedsOn
    {n i : Nat} {c : Caller} (h : c.Within n) (hi : n ≤ i) (ts : List Terminal) :
    c.deedsOn ts i = [] := by
  unfold Caller.deedsOn
  split
  · rename_i k stage hcurrent
    have hk := h.current k stage hcurrent
    split
    · exact if_neg (by omega)
    · rfl
  · split
    · rename_i k call todo htodo
      have hk := h.todo (k, call) (htodo ▸ List.mem_cons_self)
      exact if_neg (by omega)
    · rfl

theorem advances_phase
    {t t' : Terminal} {stage : Stage} {deeds : List Deed} {p : Progress}
    (h : Advances t stage deeds t' p) : t'.phase = t.phase := by
  cases h with
  | reject task => cases task <;> rfl
  | _ => rfl

namespace System

/-- A terminal of a longer list is an old one or the new one. -/
theorem getElem?_concat_cases
    {ts : List Terminal} {t t' : Terminal} {i : Nat} (ht' : (ts ++ [t])[i]? = some t') :
    i < ts.length ∧ ts[i]? = some t' ∨ i = ts.length ∧ t' = t := by
  rcases Nat.lt_trichotomy i ts.length with hi | rfl | hi
  · rw [List.getElem?_append_left hi] at ht'
    exact Or.inl ⟨hi, ht'⟩
  · rw [List.getElem?_concat_length] at ht'
    exact Or.inr ⟨rfl, (Option.some.inj ht').symm⟩
  · have hlength := (List.getElem?_eq_some_iff.mp ht').1
    rw [List.length_append, List.length_singleton] at hlength
    omega

/-- What a step of a caller leaves of a terminal. -/
theorem terminal_of_caller
    {σ : Type} {db : Database σ} {s s' : System σ} {j i : Nat} {t' : Terminal}
    (hmove : s.move db (.caller j) = some s') (ht' : s'.terminals[i]? = some t') :
    ∃ t, s.terminals[i]? = some t ∧ t'.connection = t.connection ∧ t'.phase = t.phase ∧
      (s.deedsOn db i (.caller j)).filterMap Deed.round? = [] := by
  obtain ⟨c, ts, c', hc, hstep, rfl⟩ := move_caller hmove
  simp only [deedsOn, hc, Caller.deedsOn]
  rcases Caller.step_cases hstep with
    ⟨k, call, todo, hidle, htodo, rfl, -⟩ | ⟨k, stage, u, u', p, hbusy, hu, hcall, rfl, -⟩
  · refine ⟨t', ht', rfl, rfl, ?_⟩
    simp only [hidle, htodo]
    split <;> rfl
  · have hadvances := advances_of_callStep hcall
    simp only [hbusy, hu]
    by_cases hk : k = i
    · subst hk
      rw [List.getElem?_set_self (List.getElem?_eq_some_iff.mp hu).1] at ht'
      cases ht'
      refine ⟨u, hu, ?_, advances_phase hadvances, ?_⟩
      · exact congrArg Prod.snd (Case.advances_label hadvances)
      · rw [if_pos rfl]
        exact Case.round?_callDeeds u stage
    · rw [List.getElem?_set_ne hk] at ht'
      exact ⟨t', ht', rfl, rfl, by rw [if_neg hk]; rfl⟩

theorem length_of_move
    {σ : Type} {db : Database σ} {s s' : System σ} {mover : Mover}
    (hmove : s.move db mover = some s') : s'.terminals.length = s.terminals.length := by
  cases mover with
  | worker k =>
      obtain ⟨t, w, t', -, -, rfl⟩ := move_worker hmove
      exact List.length_set
  | caller j =>
      obtain ⟨c, ts, c', -, hstep, rfl⟩ := move_caller hmove
      rcases Caller.step_cases hstep with ⟨_, _, _, -, -, rfl, -⟩ | ⟨_, _, _, _, _, -, -, -, rfl, -⟩
      · rfl
      · exact List.length_set

/-- Terminals over a scripted database, and what was done on them. -/
structure Logged (s : System Memory) (h : Nat → List Deed) : Prop where
  callers : ∀ c ∈ s.callers, c.Within s.terminals.length
  sessions : s.world.sessions.length = s.terminals.length
  connection : ∀ (i : Nat) (t : Terminal), s.terminals[i]? = some t → t.connection = i
  opened : s.world.log.filterMap Memory.opened? = List.range s.terminals.length
  unopened : ∀ i, s.terminals.length ≤ i → s.world.eventsOf i = [] ∧ h i = []
  accounted : ∀ (i : Nat) (t : Terminal), s.terminals[i]? = some t →
    Accounted t (s.stages i) (Ledger.recordAll {} (h i))
  recorded : ∀ (i : Nat) (t : Terminal), s.terminals[i]? = some t →
    Recorded (s.world.eventsOf i) (Ledger.recordAll {} (h i)).rounds t.phase

theorem logged_new (script : Script) : Logged { world := { script } } fun _ => [] where
  callers := by simp
  sessions := rfl
  connection := by simp
  opened := rfl
  unopened := fun _ _ => ⟨rfl, rfl⟩
  accounted := by simp
  recorded := by simp

namespace Logged

variable {s s' : System Memory} {h : Nat → List Deed}

/-- Nobody calls a terminal that there is not. -/
theorem stages_eq_zero
    (hlogged : s.Logged h) {i : Nat} (hi : s.terminals.length ≤ i) : s.stages i = 0 := by
  apply List.sum_eq_zero
  intro stages hstages
  obtain ⟨c, hc, rfl⟩ := List.mem_map.mp hstages
  rw [Caller.stagesOn]
  rcases hcurrent : c.current with _ | ⟨k, stage⟩
  · rfl
  · have hk := (hlogged.callers c hc).current k stage hcurrent
    exact if_neg (by omega)

/-- Whoever moves, terminals stay accounted for. -/
theorem accounted_move
    {mover : Mover} (hlogged : s.Logged h) (hmove : s.move Memory.database mover = some s')
    {i : Nat} {t' : Terminal} (ht' : s'.terminals[i]? = some t') :
    ∃ t, s.terminals[i]? = some t ∧
      Accounted t' (s'.stages i)
        (Ledger.recordAll {} (h i ++ s.deedsOn Memory.database i mover)) ∧
      (Ledger.recordAll {} (h i ++ s.deedsOn Memory.database i mover)).rounds =
        (Ledger.recordAll {} (h i)).rounds ++
          (s.deedsOn Memory.database i mover).filterMap Deed.round? := by
  have hi : i < s.terminals.length := by
    rw [← length_of_move hmove]
    exact (List.getElem?_eq_some_iff.mp ht').1
  have ht := List.getElem?_eq_getElem hi
  obtain ⟨u, hu, hvisit⟩ := visit_of_move hmove ht
  rw [ht'] at hu
  cases hu
  rw [Ledger.recordAll_append]
  exact ⟨_, ht, (hlogged.accounted i _ ht).visit hvisit,
    (hlogged.accounted i _ ht).rounds_visit hvisit⟩

theorem worker
    {k : Nat} (hlogged : s.Logged h) (hmove : s.move Memory.database (.worker k) = some s') :
    s'.Logged fun i => h i ++ s.deedsOn Memory.database i (.worker k) := by
  have hlength := length_of_move hmove
  have haccounted := fun i t' (ht' : s'.terminals[i]? = some t') =>
    hlogged.accounted_move hmove ht'
  obtain ⟨u, w, u', hu, hstep, rfl⟩ := move_worker hmove
  have hworks := works_of_workerStep hstep
  have hconnection := hlogged.connection k u hu
  have hk : k < s.terminals.length := (List.getElem?_eq_some_iff.mp hu).1
  have hevents := Memory.eventsOf_of_log (Memory.works_log hworks)
  rw [hconnection] at hevents
  have hdeeds : ∀ i, s.deedsOn Memory.database i (.worker k) =
      if k = i then u.workerDeeds Memory.database s.world else [] := by
    intro i
    simp only [deedsOn, hu]
  constructor
  · rw [hlength]
    exact hlogged.callers
  · rw [hlength, (Memory.works_touches hworks).length]
    exact hlogged.sessions
  · intro i t' ht'
    by_cases hki : k = i
    · subst hki
      rw [List.getElem?_set_self hk] at ht'
      cases ht'
      rw [← hconnection]
      exact congrArg Prod.snd (Case.works_label hworks)
    · rw [List.getElem?_set_ne hki] at ht'
      exact hlogged.connection i t' ht'
  · rw [hlength, Memory.works_log hworks, List.filterMap_append, Memory.opened_events,
      List.append_nil]
    exact hlogged.opened
  · intro i hi
    rw [hlength] at hi
    obtain ⟨hnone, hnothing⟩ := hlogged.unopened i hi
    have hki : k ≠ i := by omega
    rw [hevents, hdeeds, if_neg hki, if_neg hki, hnone, hnothing]
    exact ⟨rfl, rfl⟩
  · intro i t' ht'
    obtain ⟨t, -, hafter, -⟩ := haccounted i t' ht'
    exact hafter
  · intro i t' ht'
    obtain ⟨t, ht, -, hrounds⟩ := haccounted i t' ht'
    rw [hrounds, hevents, hdeeds]
    by_cases hki : k = i
    · subst hki
      rw [List.getElem?_set_self hk] at ht'
      cases ht'
      rw [if_pos rfl, if_pos rfl]
      exact (hlogged.recorded k u hu).work hworks
    · rw [List.getElem?_set_ne hki] at ht'
      rw [if_neg hki, if_neg hki, List.append_nil]
      simpa using hlogged.recorded i t' ht'

theorem caller
    {j : Nat} (hlogged : s.Logged h) (hmove : s.move Memory.database (.caller j) = some s') :
    s'.Logged fun i => h i ++ s.deedsOn Memory.database i (.caller j) := by
  have hlength := length_of_move hmove
  have haccounted := fun i t' (ht' : s'.terminals[i]? = some t') =>
    hlogged.accounted_move hmove ht'
  have hterminal := fun i t' (ht' : s'.terminals[i]? = some t') => terminal_of_caller hmove ht'
  obtain ⟨c, ts, c', hc, hstep, rfl⟩ := move_caller hmove
  have hwithin := hlogged.callers c (List.mem_of_getElem? hc)
  constructor
  · intro other hother
    rw [hlength]
    rcases List.mem_or_eq_of_mem_set hother with hold | rfl
    · exact hlogged.callers other hold
    · exact hwithin.step hstep
  · rw [hlength]
    exact hlogged.sessions
  · intro i t' ht'
    obtain ⟨t, ht, hconnection, -⟩ := hterminal i t' ht'
    rw [hconnection]
    exact hlogged.connection i t ht
  · rw [hlength]
    exact hlogged.opened
  · intro i hi
    rw [hlength] at hi
    obtain ⟨hnone, hnothing⟩ := hlogged.unopened i hi
    simp only [deedsOn, hc, hwithin.deedsOn hi, hnothing, List.append_nil]
    exact ⟨hnone, trivial⟩
  · intro i t' ht'
    obtain ⟨t, -, hafter, -⟩ := haccounted i t' ht'
    exact hafter
  · intro i t' ht'
    obtain ⟨t, ht, -, hrounds⟩ := haccounted i t' ht'
    obtain ⟨u, hu, -, hphase, hroundless⟩ := hterminal i t' ht'
    rw [hrounds, hroundless, List.append_nil, hphase]
    exact hlogged.recorded i u hu

/-- A terminal that is started gets the next connection. -/
theorem start
    {env : Environment} {name : String} {t : Terminal} {w : Memory} (hlogged : s.Logged h)
    (hstart : Terminal.start Memory.database env s.world name = (.ok t, w)) :
    Logged { s with world := w, terminals := s.terminals ++ [t] } h := by
  obtain ⟨connection, rfl, hconnect⟩ := Memory.connect_of_start hstart
  obtain ⟨hnumber, -, hsessions⟩ := Memory.connect_done hconnect
  rw [hlogged.sessions] at hnumber
  subst hnumber
  have hlog := Memory.connect_log hconnect
  have hevents := Memory.eventsOf_of_log hlog
  constructor
  · intro c hc
    obtain ⟨htodo, hcurrent⟩ := hlogged.callers c hc
    simp only [List.length_append, List.length_singleton]
    exact ⟨fun x hx => Nat.lt_succ_of_lt (htodo x hx),
      fun i stage hi => Nat.lt_succ_of_lt (hcurrent i stage hi)⟩
  · simp [hsessions, hlogged.sessions]
  · intro i t' ht'
    rcases getElem?_concat_cases ht' with ⟨-, hold⟩ | ⟨rfl, rfl⟩
    · exact hlogged.connection i t' hold
    · rfl
  · simp [hlog, hlogged.opened, Memory.opened?, List.range_succ]
  · intro i hi
    rw [List.length_append, List.length_singleton] at hi
    obtain ⟨hnone, hnothing⟩ := hlogged.unopened i (by omega)
    rw [hevents, if_neg (by omega), hnone]
    exact ⟨rfl, hnothing⟩
  · intro i t' ht'
    rcases getElem?_concat_cases ht' with ⟨-, hold⟩ | ⟨rfl, rfl⟩
    · exact hlogged.accounted i t' hold
    · have hfresh : Fresh { name, connection := s.terminals.length } := ⟨name, _, 1, rfl⟩
      have hstages := hlogged.stages_eq_zero (Nat.le_refl _)
      rw [(hlogged.unopened _ (Nat.le_refl _)).2]
      change Accounted _ (s.stages s.terminals.length) _
      rw [hstages]
      exact hfresh.accounted
  · intro i t' ht'
    rcases getElem?_concat_cases ht' with ⟨hi, hold⟩ | ⟨rfl, rfl⟩
    · rw [hevents, if_neg (by omega), List.append_nil]
      exact hlogged.recorded i t' hold
    · obtain ⟨hnone, hnothing⟩ := hlogged.unopened _ (Nat.le_refl s.terminals.length)
      rw [hevents, if_pos rfl, hnone, hnothing]
      exact ⟨env.config, env.autoCommit, [], rfl, Or.inl rfl⟩

/-- Somebody comes who has handles. -/
theorem enter
    {calls : List (Nat × Call)} (hlogged : s.Logged h)
    (hcalls : ∀ x ∈ calls, x.1 < s.terminals.length) :
    Logged { s with callers := s.callers ++ [{ todo := calls }] } h := by
  have hstages : ∀ i,
      stages { s with callers := s.callers ++ [{ todo := calls }] } i = s.stages i := by
    intro i
    simp [stages, Caller.stagesOn]
  refine ⟨?_, hlogged.sessions, hlogged.connection, hlogged.opened, hlogged.unopened, ?_,
    hlogged.recorded⟩
  · intro c hc
    rcases List.mem_append.mp hc with hold | hnew
    · exact hlogged.callers c hold
    · obtain rfl := List.mem_singleton.mp hnew
      refine ⟨hcalls, ?_⟩
      intro i stage hcurrent
      cases hcurrent
  · intro i t ht
    rw [hstages]
    exact hlogged.accounted i t ht

theorem occur
    {o : Occurrence} (hlogged : s.Logged h) (ho : s.occur o = some s') :
    s'.Logged fun i => h i ++ s.deedsBy i o := by
  cases o with
  | moved mover =>
      cases mover with
      | worker k => exact hlogged.worker ho
      | caller j => exact hlogged.caller ho
  | started env name =>
      simp only [deedsBy, List.append_nil]
      simp only [System.occur] at ho
      split at ho
      · rename_i e w hstart
        cases ho
        rw [Memory.start_error hstart]
        exact hlogged
      · rename_i t w hstart
        cases ho
        exact hlogged.start hstart
  | entered calls =>
      simp only [deedsBy, List.append_nil]
      simp only [System.occur] at ho
      split at ho
      · rename_i hcalls
        cases ho
        exact hlogged.enter (by simpa using hcalls)
      · cases ho
  | scripted script =>
      simp only [deedsBy, List.append_nil]
      cases ho
      exact ⟨hlogged.callers, hlogged.sessions, hlogged.connection, hlogged.opened,
        hlogged.unopened, hlogged.accounted, hlogged.recorded⟩

theorem occurAll
    {os : List Occurrence} (hlogged : s.Logged h) (hrun : s.occurAll os = some s') :
    s'.Logged fun i => h i ++ s.chronicle i os := by
  induction os generalizing s h with
  | nil =>
      cases hrun
      simpa [chronicle] using hlogged
  | cons o os ih =>
      obtain ⟨next, hnext, hrest⟩ := Option.bind_eq_some_iff.mp hrun
      have hlater := ih (hlogged.occur hnext) hrest
      simp only [List.append_assoc] at hlater
      simp only [chronicle, hnext]
      exact hlater

end Logged

/-- The log of every connection is well formed, whoever starts terminals, calls them or changes the
script, and in whatever order all this happens.  Connections are numbered as they are opened, and a
refused one leaves no trace.  On each connection the log has its opening, then queries and fetches,
and then perhaps its closing; the queries and fetches are the first tasks, in order, of those queued
on its terminal before a shutdown. -/
theorem log_is_well_formed
    (script : Script) {os : List Occurrence} {s : System Memory}
    (hrun : occurAll { world := { script } } os = some s) :
    s.world.log.filterMap Memory.opened? = List.range s.terminals.length ∧
    (∀ env name e w, Terminal.start Memory.database env s.world name = (.error e, w) →
      w = s.world) ∧
    (∀ (i : Nat) (t : Terminal), s.terminals[i]? = some t → t.connection = i ∧
      ∃ config autoCommit work closing,
        s.world.eventsOf i = .connect config autoCommit :: work.map Task.event ++ closing ∧
        (closing = [] ∨ closing = [.close]) ∧
        work <+: (queued { world := { script } } i os).takeWhile (· ≠ .shutdown)) ∧
    ∀ i, s.terminals.length ≤ i → s.world.eventsOf i = [] := by
  have hlogged := (logged_new script).occurAll hrun
  refine ⟨hlogged.opened, fun env name e w hstart => Memory.start_error hstart, ?_,
    fun i hi => (hlogged.unopened i hi).1⟩
  intro i t ht
  refine ⟨hlogged.connection i t ht, ?_⟩
  obtain ⟨config, autoCommit, closing, hevents, hclosing⟩ := hlogged.recorded i t ht
  have hwork := (hlogged.accounted i t ht).rounds_before_shutdown
  rw [Ledger.sent_recordAll] at hwork
  refine ⟨config, autoCommit, _, closing, ?_, hclosing.imp_right And.left, hwork⟩
  rw [hevents, List.map_map]
  rfl

/-- Two terminals are started and a third one is refused.  The first terminal is closed and called
again; the worker of the second one is lost. -/
def bustle : List Occurrence :=
  [.started ⟨"c", true⟩ "a", .started ⟨"d", false⟩ "b",
    .scripted { responses := [("p", .crash "gone")], refusal := some (0, .error "full") },
    .started ⟨"c", true⟩ "e",
    .entered [(0, .execute "q"), (0, .store "r"), (0, .close), (0, .execute "late")],
    .entered [(1, .execute "p"), (1, .execute "q")]] ++
  (List.replicate 13 (Mover.caller 0) ++ List.replicate 6 (Mover.caller 1) ++
    List.replicate 5 (Mover.worker 0) ++ List.replicate 9 (Mover.worker 1) ++
    List.replicate 14 (Mover.worker 0)).map .moved

theorem log_bustle :
    (occurAll { world := {} } bustle).map (fun s => (s.world.log, s.terminals.length)) =
      some ([(0, .connect "c" true), (1, .connect "d" false), (0, .execute "q"), (1, .execute "p"),
        (0, .fetch), (0, .close)], 2) := by
  cbv

theorem queued_bustle :
    queued { world := {} } 0 bustle =
      [.execute "q", .fetch "r", .shutdown, .execute "late"] := by
  cbv

theorem log_is_well_formed_bustle :
    ∃ s, occurAll { world := {} } bustle = some s ∧
      s.world.log = [(0, .connect "c" true), (1, .connect "d" false), (0, .execute "q"),
        (1, .execute "p"), (0, .fetch), (0, .close)] ∧
      s.world.log.filterMap Memory.opened? = [0, 1] ∧
      ∃ config autoCommit work closing,
        s.world.eventsOf 0 = .connect config autoCommit :: work.map Task.event ++ closing ∧
        (closing = [] ∨ closing = [.close]) ∧ work <+: [.execute "q", .fetch "r"] := by
  obtain ⟨s, hrun, hlog⟩ := Option.map_eq_some_iff.mp log_bustle
  obtain ⟨hlog, hlength⟩ := Prod.mk.inj hlog
  obtain ⟨hopened, -, hterminals, -⟩ := log_is_well_formed {} hrun
  have ht := List.getElem?_eq_getElem (l := s.terminals) (i := 0) (by omega)
  obtain ⟨-, config, autoCommit, work, closing, hevents, hclosing, hwork⟩ := hterminals 0 _ ht
  rw [queued_bustle] at hwork
  rw [hlength] at hopened
  exact ⟨s, hrun, hlog, hopened, config, autoCommit, work, closing, hevents, hclosing, hwork⟩

end System

end Terminal
end CaseSuite
