import CaseSuite.Memory
import CaseSuite.Proofs.Execution.Chronicle
import CaseSuite.Proofs.Terminal.Exit

/-!
# Cases over a scripted database

The scripted database answers a query as the script says, whatever came before it, and a fetch with
the rows of the last query on the same connection that were not fetched yet.  So the rounds of a
worker determine what its connection has left, and every answer in them can be told from the script.
`Faithful` keeps this for all terminals of a case at once: their connections are apart, so no worker
touches the rows of another.
-/

namespace CaseSuite

open Terminal (Call Deed Ledger Round Stage Works)

namespace Script

/-- What the script says about a query; one that it does not know goes well. -/
def response (s : Script) (query : String) : Response :=
  (s.responses.lookup query).getD .done

/-- How the database answers a query. -/
def reply (s : Script) (query : String) : Reply Unit :=
  (s.response query).failure?.getD (.done ())

/-- The rows that a query leaves to be fetched. -/
def rowsOf (s : Script) (query : String) : List Row :=
  match s.response query with
  | .rows rows => rows
  | _ => []

/-- Rounds on one connection as the script has them, and the rows that they leave. -/
inductive Tells (s : Script) : List Round → List Row → Prop
  | nil : Tells s [] []
  | execute {rounds : List Round} {rows : List Row} (h : Tells s rounds rows) (query : String) :
      Tells s (rounds ++ [Round.execute query (s.reply query)]) (s.rowsOf query)
  | fetch {rounds : List Round} {rows : List Row} (h : Tells s rounds rows) (name : String) :
      Tells s (rounds ++ [Round.fetch name (.done rows)]) []

namespace Tells

variable {s : Script} {rounds : List Round} {rows : List Row}

theorem of_execute
    {query : String} {reply : Reply Unit}
    (h : s.Tells (rounds ++ [Round.execute query reply]) rows) :
    reply = s.reply query ∧ rows = s.rowsOf query := by
  generalize hall : rounds ++ [Round.execute query reply] = all at h
  cases h with
  | nil => simp at hall
  | execute _ other =>
      obtain ⟨-, hlast⟩ := List.append_inj' hall rfl
      cases hlast
      exact ⟨rfl, rfl⟩
  | fetch _ name =>
      obtain ⟨-, hlast⟩ := List.append_inj' hall rfl
      cases hlast

/-- A fetch gets what the rounds before it have left. -/
theorem of_fetch
    {name : String} {reply : Reply (List Row)}
    (h : s.Tells (rounds ++ [Round.fetch name reply]) rows) :
    ∃ left, s.Tells rounds left ∧ reply = .done left := by
  generalize hall : rounds ++ [Round.fetch name reply] = all at h
  cases h with
  | nil => simp at hall
  | execute _ other =>
      obtain ⟨-, hlast⟩ := List.append_inj' hall rfl
      cases hlast
  | fetch htells other =>
      obtain ⟨rfl, hlast⟩ := List.append_inj' hall rfl
      cases hlast
      exact ⟨_, htells, rfl⟩

/-- The database survives every round but a query of which the script says otherwise. -/
theorem response_of_isCrash
    (h : s.Tells rounds rows) {round : Round} (hround : round ∈ rounds)
    (hcrash : round.isCrash = true) :
    ∃ query message, round.task = .execute query ∧ s.response query = .crash message := by
  induction h with
  | nil => cases hround
  | execute _ query ih =>
      rcases List.mem_append.mp hround with hbefore | hlast
      · exact ih hbefore
      · obtain rfl := List.mem_singleton.mp hlast
        rcases hresponse : s.response query with _ | rows | message | message | message
        case crash => exact ⟨query, message, rfl, hresponse⟩
        all_goals simp [reply, hresponse, Response.failure?, Round.isCrash] at hcrash
  | fetch _ name ih =>
      rcases List.mem_append.mp hround with hbefore | hlast
      · exact ih hbefore
      · obtain rfl := List.mem_singleton.mp hlast
        cases hcrash

end Tells

end Script

namespace Memory

/-! ## Sessions -/

variable {m : Memory} {connection : Nat}

theorem database_execute
    (m : Memory) (connection : Nat) (query : String) :
    database.execute m connection query = (m.script.reply query,
      (m.record connection (.execute query)).setSession connection
        ⟨m.script.rowsOf query, some query⟩) :=
  rfl

theorem database_fetch
    (hfetches : m.script.fetches = []) (connection : Nat) :
    database.fetch m connection = (.done (m.session connection).rows,
      (m.record connection .fetch).setSession connection
        { m.session connection with rows := [] }) := by
  change fetch m connection = _
  simp [fetch, hfetches]

theorem session_setSession
    (h : connection < m.sessions.length) (e : Event) (s : Session) :
    ((m.record connection e).setSession connection s).session connection = s := by
  simp [session, setSession, record, h]

/-- What a worker may change of the database: the session of its own connection. -/
structure Touches (connection : Nat) (m m' : Memory) : Prop where
  script : m'.script = m.script
  length : m'.sessions.length = m.sessions.length
  others : ∀ other, other ≠ connection → m'.session other = m.session other

theorem touches_rfl
    (connection : Nat) (m : Memory) : Touches connection m m :=
  ⟨rfl, rfl, fun _ _ => rfl⟩

theorem touches_setSession
    (e : Event) (s : Session) :
    Touches connection m ((m.record connection e).setSession connection s) where
  script := rfl
  length := by simp [record, setSession]
  others other hother := by
    simp [session, setSession, record, List.getElem?_set_ne hother.symm]

theorem works_touches
    {t t' : Terminal} {m' : Memory} {deeds : List Deed} (h : Works database m t deeds m' t') :
    Touches t.connection m m' := by
  cases h with
  | execute _ answer =>
      rw [database_execute] at answer
      cases answer
      exact touches_setSession _ _
  | fetch _ answer =>
      cases answer
      exact touches_setSession _ _
  | close _ answer =>
      cases answer
      exact ⟨rfl, rfl, fun _ _ => rfl⟩
  | _ => exact touches_rfl _ _

/-- The rounds of a worker stay as the script has them. -/
theorem works_tells
    {t t' : Terminal} {m' : Memory} {deeds : List Deed} {rounds : List Round}
    (h : Works database m t deeds m' t') (hfetches : m.script.fetches = [])
    (hopen : t.connection < m.sessions.length)
    (htells : m.script.Tells rounds (m.session t.connection).rows) :
    m.script.Tells (rounds ++ deeds.filterMap Deed.round?) (m'.session t.connection).rows := by
  have hquiet : deeds.filterMap Deed.round? = [] →
      m'.session t.connection = m.session t.connection →
      m.script.Tells (rounds ++ deeds.filterMap Deed.round?) (m'.session t.connection).rows := by
    intro hnone hsame
    rw [hnone, hsame, List.append_nil]
    exact htells
  cases h with
  | execute _ answer =>
      rename_i query reply _
      rw [database_execute] at answer
      cases answer
      rw [session_setSession hopen]
      exact htells.execute query
  | fetch _ answer =>
      rename_i name reply _
      rw [database_fetch hfetches] at answer
      cases answer
      rw [session_setSession hopen]
      exact htells.fetch name
  | close _ answer =>
      cases answer
      exact hquiet rfl rfl
  | _ => exact hquiet rfl rfl

/-- A connection that is opened is a new one, and nothing is left on it. -/
theorem connect_done
    {m' : Memory} {config : String} {autoCommit : Bool}
    (h : database.connect m config autoCommit = (.done connection, m')) :
    connection = m.sessions.length ∧ m'.script = m.script ∧
      m'.sessions = m.sessions ++ [⟨[], none⟩] := by
  change connect m config autoCommit = _ at h
  unfold connect at h
  split at h
  · rename_i reply hrefusal
    obtain ⟨rfl, -⟩ := Prod.mk.inj h
    unfold refusal? at hrefusal
    split at hrefusal
    · split at hrefusal
      · rename_i limit response _ _
        cases response <;> cases hrefusal
      · cases hrefusal
    · cases hrefusal
  · cases h
    exact ⟨rfl, rfl, rfl⟩

/-- A terminal that does not start leaves the database as it was. -/
theorem start_error
    {m' : Memory} {env : Environment} {name : String} {e : Failure}
    (h : Terminal.start database env m name = (.error e, m')) : m' = m := by
  have hconnect : database.connect m env.config env.autoCommit =
      connect m env.config env.autoCommit := rfl
  unfold Terminal.start at h
  rw [hconnect] at h
  unfold connect at h
  rcases hrefusal : m.refusal? with _ | reply
  · simp [hrefusal] at h
  · rw [hrefusal] at h
    cases reply <;> cases h <;> rfl

end Memory

namespace Case

variable {σ : Type}

/-! ## What a turn does to the database -/

theorem round?_callDeeds
    (t : Terminal) (stage : Stage) : (t.callDeeds stage).filterMap Deed.round? = [] := by
  cases stage with
  | sending task =>
      rw [Terminal.callDeeds]
      split <;> rfl
  | _ => rfl

/-- No worker runs a round. -/
def Roundless (hs : List Happening) : Prop :=
  ∀ i, (deedsOn i hs).filterMap Deed.round? = []

theorem roundless_did
    {deeds : List Deed} (k : Nat) (h : deeds.filterMap Deed.round? = []) :
    Roundless (deeds.map (.did k)) := by
  intro i
  rw [deedsOn_did]
  split
  · exact h
  · rfl

theorem roundless_began
    (k : Nat) (call : Call) : Roundless [.did k (.began call)] := by
  have hquiet : [Deed.began call].filterMap Deed.round? = [] := rfl
  exact roundless_did k hquiet

/-- A turn is a step of a worker, or it starts a terminal, or it runs no round and leaves the
database alone. -/
theorem Turn.world_cases
    {db : Database σ} {env : Environment} {m m' : Running σ} {hs : List Happening}
    (h : Turn db env m hs m') :
    (∃ w k t t' deeds, m.terminals[k]? = some t ∧ Works db m.world t deeds w t' ∧
      (∀ i, deedsOn i hs = if k = i then deeds else []) ∧ m'.world = w ∧
      m'.terminals = m.terminals.set k t') ∨
    (∃ w, ∃ name : String, ∃ connection : Nat,
      db.connect m.world env.config env.autoCommit = (.done connection, w) ∧
      m'.world = w ∧ m'.terminals = m.terminals ++ [{ name := name, connection := connection }] ∧
      Roundless hs) ∨
    ((m'.world = m.world ∨ ∃ name e, Terminal.start db env m.world name = (.error e, m'.world)) ∧
      m'.terminals.map label = m.terminals.map label ∧ Roundless hs) := by
  have hopened := h.opened
  have hnone : openedIn hs = [] → m'.terminals.map label = m.terminals.map label := by
    intro hnothing
    rw [hopened, hnothing, List.append_nil]
  cases h with
  | work ht works =>
      refine Or.inl ⟨_, _, _, _, _, ht, works, ?_, rfl, rfl⟩
      intro i
      rw [deedsOn_append, deedsOn_did, deedsOn_closed, List.append_nil]
  | start _ connect =>
      exact Or.inr (Or.inl ⟨_, _, _, connect, rfl, rfl, fun i => rfl⟩)
  | refuse _ refused =>
      exact Or.inr (Or.inr ⟨Or.inr ⟨_, _, refused⟩, hnone rfl, fun i => rfl⟩)
  | begin =>
      exact Or.inr (Or.inr ⟨Or.inl rfl, hnone rfl, roundless_began _ _⟩)
  | goOn =>
      rename_i stage _ _ _ t _ _ _ _
      exact Or.inr (Or.inr ⟨Or.inl rfl, hnone (internal_callDeeds _ _ _).opened,
        roundless_did _ (round?_callDeeds t stage)⟩)
  | answer =>
      rename_i stage answer _ _ t _ _ _ _
      refine Or.inr (Or.inr ⟨Or.inl (by cases answer <;> rfl), hnone ?_, ?_⟩)
      · rw [openedIn_append, (internal_callDeeds _ _ _).opened, opened_leaves, List.nil_append]
      · intro i
        rw [deedsOn_append, deedsOn_leaves, List.append_nil]
        exact roundless_did _ (round?_callDeeds t stage) i
  | tear =>
      refine Or.inr (Or.inr ⟨Or.inl rfl, hnone (opened_tearing _ _), ?_⟩)
      unfold tearing
      split
      · split
        · exact roundless_did _ (round?_callDeeds _ _)
        · exact fun i => rfl
      · exact roundless_began _ _
      · exact fun i => rfl
  | _ => exact Or.inr (Or.inr ⟨Or.inl rfl, hnone rfl, fun i => rfl⟩)

/-! ## Faithful runs -/

/-- The connections of the terminals. -/
def Running.connections (m : Running σ) : List Nat :=
  m.terminals.map (·.connection)

theorem connections_of_labels
    {m m' : Running σ} (h : m'.terminals.map label = m.terminals.map label) :
    m'.connections = m.connections := by
  have hsnd := congrArg (List.map Prod.snd) h
  simpa [Running.connections, Function.comp_def, label] using hsnd

theorem mem_connections
    {m : Running σ} {i : Nat} {t : Terminal} (ht : m.terminals[i]? = some t) :
    t.connection ∈ m.connections :=
  List.mem_map_of_mem (List.mem_of_getElem? ht)

theorem getElem?_connections
    {m : Running σ} {i : Nat} {t : Terminal} (ht : m.terminals[i]? = some t) :
    m.connections[i]? = some t.connection := by
  rw [Running.connections, List.getElem?_map, ht, Option.map_some]

/-- The connections of two terminals are apart. -/
theorem connection_ne
    {m : Running σ} {i k : Nat} {t u : Terminal} (h : m.connections.Nodup)
    (ht : m.terminals[i]? = some t) (hu : m.terminals[k]? = some u) (hne : k ≠ i) :
    t.connection ≠ u.connection := by
  intro heq
  have hk := List.getElem?_eq_some_iff.mp (getElem?_connections hu)
  refine hne ((List.getElem?_inj hk.1 h).mp ?_)
  rw [getElem?_connections hu, getElem?_connections ht, heq]

/-- The answers that the workers got are those of the script. -/
structure Faithful (script : Script) (m : Running Memory) (h : List Happening) : Prop where
  scripted : m.world.script = script
  fetches : script.fetches = []
  connected : ∀ connection ∈ m.connections, connection < m.world.sessions.length
  apart : m.connections.Nodup
  tells : ∀ i t, m.terminals[i]? = some t →
    script.Tells (ledgerOn i h).rounds (m.world.session t.connection).rows
  departing : ∀ i t, m.terminals[i]? = some t →
    ∃ panicked, (ledgerOn i h).Departing panicked t.last t.phase

theorem faithful_new
    {w : Memory} (h : w.script.fetches = []) (p : Plan) :
    Faithful w.script (Running.new w p) [] where
  scripted := rfl
  fetches := h
  connected := by simp [Running.new, Running.connections]
  apart := List.nodup_nil
  tells := by simp [Running.new]
  departing := by simp [Running.new]

namespace Faithful

variable {script : Script} {env : Environment} {p : Plan} {m m' : Running Memory}
  {h hs : List Happening} {i : Nat} {t t' : Terminal}

/-- A terminal keeps its connection. -/
theorem connection_eq
    (hturn : Turn Memory.database env m hs m') (ht : m.terminals[i]? = some t)
    (ht' : m'.terminals[i]? = some t') : t'.connection = t.connection := by
  have hlabels := congrArg (·[i]?) hturn.opened
  have hi : i < m.terminals.length := (List.getElem?_eq_some_iff.mp ht).1
  rw [List.getElem?_append_left (by simpa using hi)] at hlabels
  simp only [List.getElem?_map, ht, ht', Option.map_some, label, Option.some.injEq,
    Prod.mk.injEq] at hlabels
  exact hlabels.2

/-- A turn adds its rounds to those of a terminal that there was before. -/
theorem rounds_eq
    (hchronicle : Chronicle p m h) (hturn : Turn Memory.database env m hs m')
    (ht : m.terminals[i]? = some t) :
    (ledgerOn i (h ++ hs)).rounds =
      (ledgerOn i h).rounds ++ (deedsOn i hs).filterMap Deed.round? := by
  obtain ⟨u, -, hvisit⟩ := hturn.visit ht
  rw [ledgerOn_append]
  exact (hchronicle.tended i t ht).accounted.rounds_visit hvisit

/-- Nothing has happened on a terminal that is new. -/
theorem ledgerOn_new
    (hchronicle : Chronicle p m h) (hturn : Turn Memory.database env m hs m')
    (hi : m.terminals.length ≤ i) : ledgerOn i (h ++ hs) = {} := by
  have hnothing : deedsOn i (h ++ hs) = [] := by
    refine List.filterMap_eq_nil_iff.mpr fun x hx => ?_
    have hwithin : ∀ k, x.terminal? = some k → k < m.terminals.length := by
      intro k hk
      rcases List.mem_append.mp hx with hold | hnew
      · exact hchronicle.within x hold k hk
      · exact hturn.within hchronicle.sound hnew hk
    cases x with
    | did k deed =>
        have hk : k ≠ i := fun heq => absurd (hwithin k rfl) (by omega)
        exact if_neg hk
    | _ => rfl
  rw [ledgerOn, hnothing, Ledger.recordAll_nil]

theorem departing_turn
    (hfaithful : Faithful script m h) (hchronicle : Chronicle p m h)
    (hturn : Turn Memory.database env m hs m') (ht' : m'.terminals[i]? = some t') :
    ∃ panicked, (ledgerOn i (h ++ hs)).Departing panicked t'.last t'.phase := by
  by_cases hi : i < m.terminals.length
  · have ht := List.getElem?_eq_getElem hi
    obtain ⟨panicked, hdeparting⟩ := hfaithful.departing i _ ht
    obtain ⟨u, hu, hvisit⟩ := hturn.visit ht
    rw [ht'] at hu
    cases hu
    rw [ledgerOn_append]
    exact ⟨_, (hchronicle.tended i _ ht).accounted.departing_visit hdeparting hvisit⟩
  · obtain ⟨name, connection, rest, rfl, -⟩ := hturn.fresh (Nat.not_lt.mp hi) ht'
    exact ⟨false, rfl⟩

/-- A worker gets its answers from the script and leaves those of the others alone. -/
theorem work
    (hfaithful : Faithful script m h) (hchronicle : Chronicle p m h)
    (hturn : Turn Memory.database env m hs m') {k : Nat} {u u' : Terminal} {deeds : List Deed}
    (hu : m.terminals[k]? = some u) (works : Works Memory.database m.world u deeds m'.world u')
    (hdeeds : ∀ i, deedsOn i hs = if k = i then deeds else [])
    (hterminals : m'.terminals = m.terminals.set k u') : Faithful script m' (h ++ hs) := by
  have htouches := Memory.works_touches works
  have hconnections : m'.connections = m.connections := by
    refine connections_of_labels ?_
    rw [hterminals]
    exact map_label_set hu (works_label works)
  constructor
  · rw [htouches.script]
    exact hfaithful.scripted
  · exact hfaithful.fetches
  · rw [hconnections, htouches.length]
    exact hfaithful.connected
  · rw [hconnections]
    exact hfaithful.apart
  · intro i t' ht'
    by_cases hk : k = i
    · subst hk
      have hopen := hfaithful.connected _ (mem_connections hu)
      have hfetches : m.world.script.fetches = [] := by
        rw [hfaithful.scripted]
        exact hfaithful.fetches
      have htells := hfaithful.tells k u hu
      rw [← hfaithful.scripted] at htells ⊢
      rw [rounds_eq hchronicle hturn hu, hdeeds, if_pos rfl, connection_eq hturn hu ht']
      exact Memory.works_tells works hfetches hopen htells
    · have ht : m.terminals[i]? = some t' := by
        rw [hterminals, List.getElem?_set_ne hk] at ht'
        exact ht'
      have hapart := connection_ne hfaithful.apart ht hu hk
      rw [rounds_eq hchronicle hturn ht, hdeeds, if_neg hk, htouches.others _ hapart]
      simpa using hfaithful.tells i t' ht
  · intro i t' ht'
    exact hfaithful.departing_turn hchronicle hturn ht'

/-- A terminal that is started has a connection of its own. -/
theorem start
    (hfaithful : Faithful script m h) (hchronicle : Chronicle p m h)
    (hturn : Turn Memory.database env m hs m') {name : String} {connection : Nat}
    (hconnect : Memory.database.connect m.world env.config env.autoCommit =
      (.done connection, m'.world))
    (hterminals : m'.terminals = m.terminals ++ [{ name := name, connection := connection }])
    (hroundless : Roundless hs) : Faithful script m' (h ++ hs) := by
  obtain ⟨rfl, hscript, hsessions⟩ := Memory.connect_done hconnect
  have hconnections : m'.connections = m.connections ++ [m.world.sessions.length] := by
    simp [Running.connections, hterminals]
  constructor
  · rw [hscript]
    exact hfaithful.scripted
  · exact hfaithful.fetches
  · intro connection hin
    rw [hconnections] at hin
    rw [hsessions, List.length_append, List.length_singleton]
    rcases List.mem_append.mp hin with hold | hnew
    · exact Nat.lt_succ_of_lt (hfaithful.connected _ hold)
    · rw [List.mem_singleton.mp hnew]
      exact Nat.lt_succ_self _
  · rw [hconnections, List.nodup_append]
    refine ⟨hfaithful.apart, List.nodup_singleton _, ?_⟩
    intro connection hin other hother heq
    rw [heq, List.mem_singleton.mp hother] at hin
    exact absurd (hfaithful.connected _ hin) (Nat.lt_irrefl _)
  · intro i t' ht'
    by_cases hi : i < m.terminals.length
    · have ht : m.terminals[i]? = some t' := by
        rw [hterminals, List.getElem?_append_left hi] at ht'
        exact ht'
      have hopen := hfaithful.connected _ (mem_connections ht)
      have hsession : m'.world.session t'.connection = m.world.session t'.connection := by
        rw [Memory.session, hsessions, List.getElem?_append_left hopen]
        rfl
      rw [rounds_eq hchronicle hturn ht, hroundless, List.append_nil, hsession]
      exact hfaithful.tells i t' ht
    · rw [ledgerOn_new hchronicle hturn (Nat.not_lt.mp hi)]
      have hlength : i < m'.terminals.length := (List.getElem?_eq_some_iff.mp ht').1
      rw [hterminals, List.length_append, List.length_singleton] at hlength
      obtain rfl : i = m.terminals.length := by omega
      rw [hterminals, List.getElem?_concat_length] at ht'
      cases ht'
      rw [Memory.session, hsessions, List.getElem?_concat_length]
      exact Script.Tells.nil
  · intro i t' ht'
    exact hfaithful.departing_turn hchronicle hturn ht'

/-- Whoever moves, the answers are those of the script. -/
theorem turn
    (hfaithful : Faithful script m h) (hchronicle : Chronicle p m h)
    (hturn : Turn Memory.database env m hs m') : Faithful script m' (h ++ hs) := by
  rcases hturn.world_cases with
    ⟨w, k, u, u', deeds, hu, works, hdeeds, rfl, hterminals⟩ |
    ⟨w, name, connection, hconnect, rfl, hterminals, hroundless⟩ |
    ⟨hworld, hlabels, hroundless⟩
  · exact hfaithful.work hchronicle hturn hu works hdeeds hterminals
  · exact hfaithful.start hchronicle hturn hconnect hterminals hroundless
  · have hsame : m'.world = m.world := by
      rcases hworld with hsame | ⟨name, e, hstart⟩
      · exact hsame
      · exact Memory.start_error hstart
    have hconnections := connections_of_labels hlabels
    constructor
    · rw [hsame]
      exact hfaithful.scripted
    · exact hfaithful.fetches
    · rw [hconnections, hsame]
      exact hfaithful.connected
    · rw [hconnections]
      exact hfaithful.apart
    · intro i t' ht'
      have hlength := congrArg List.length hlabels
      rw [List.length_map, List.length_map] at hlength
      have hi : i < m.terminals.length := by
        rw [← hlength]
        exact (List.getElem?_eq_some_iff.mp ht').1
      have ht := List.getElem?_eq_getElem hi
      rw [rounds_eq hchronicle hturn ht, hroundless, List.append_nil, hsame,
        connection_eq hturn ht ht']
      exact hfaithful.tells i _ ht
    · intro i t' ht'
      exact hfaithful.departing_turn hchronicle hturn ht'

/-- Along every schedule the answers are those of the script. -/
theorem run
    (hfaithful : Faithful script m h) (hchronicle : Chronicle p m h) {movers : List Mover}
    (hrun : m.runSchedule Memory.database env movers = some m') :
    Faithful script m' (h ++ m.history Memory.database env movers) := by
  induction movers generalizing m h with
  | nil =>
      cases hrun
      rw [Running.history, List.append_nil]
      exact hfaithful
  | cons mover movers ih =>
      obtain ⟨next, hmove, hrest⟩ := Option.bind_eq_some_iff.mp hrun
      have hturn := turn_of_move hmove
      have hlater := ih (hfaithful.turn hchronicle hturn) (hchronicle.turn hturn) hrest
      rw [List.append_assoc] at hlater
      simp only [Running.history, hmove]
      exact hlater

end Faithful

end Case

end CaseSuite
