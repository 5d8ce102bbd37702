import CaseSuite.Proofs.Execution.Teardown

/-!
# The chronicle of a case

A schedule has a history.  `Chronicle` is what holds of a case and its history at all times, along
every schedule: which terminals were started, what the thread has done, and how each worker stands
with its tasks.  When the case has returned it says that everything was torn down: all terminals
were closed and then joined, no worker is left, and it is known what became of every task.
-/

namespace CaseSuite

open Terminal (Advances Answer Call Caller Deed Ledger Served Stage Works)

/-- The terminal that an action starts. -/
def Action.start? : Action → Option String
  | .start name => some name
  | _ => none

/-- The terminals that a plan starts, in order. -/
def Plan.starts (p : Plan) : List String :=
  p.actions.filterMap Action.start?

namespace Case

variable {σ : Type}

/-- The case after a schedule, if every mover in it can move in its turn. -/
def Running.runSchedule (db : Database σ) (env : Environment) (m : Running σ)
    (movers : List Mover) : Option (Running σ) :=
  movers.foldlM (Running.move db env) m

/-- What happens along a schedule. -/
def Running.history (db : Database σ) (env : Environment) (m : Running σ) :
    List Mover → List Happening
  | [] => []
  | mover :: movers =>
      match m.move db env mover with
      | some m' => m.happenings db m' mover ++ m'.history db env movers
      | none => []

/-! ## The terminals -/

/-- What a terminal keeps as long as there is one: its name and its connection. -/
def label (t : Terminal) : String × Nat := (t.name, t.connection)

theorem works_label
    {db : Database σ} {w w' : σ} {t t' : Terminal} {deeds : List Deed}
    (h : Works db w t deeds w' t') : label t' = label t := by
  cases h <;> rfl

theorem advances_label
    {t t' : Terminal} {stage : Stage} {deeds : List Deed} {p : Terminal.Progress}
    (h : Advances t stage deeds t' p) : label t' = label t := by
  cases h with
  | reject task => cases task <;> rfl
  | _ => rfl

theorem map_label_set
    {ts : List Terminal} {k : Nat} {u u' : Terminal} (hu : ts[k]? = some u)
    (h : label u' = label u) : (ts.set k u').map label = ts.map label := by
  obtain ⟨hk, rfl⟩ := List.getElem?_eq_some_iff.mp hu
  rw [List.map_set, h, ← List.getElem_map label (h := by simpa using hk), List.set_getElem_self]

theorem opened_tearing (ts : List Terminal) (caller : Caller) :
    openedIn (tearing ts caller) = [] := by
  obtain ⟨k, deeds, htearing⟩ := tearing_eq ts caller
  rw [htearing]
  simp [openedIn, List.filterMap_map]

theorem opened_leaves (answer : Answer) : openedIn (leaves answer) = [] := by
  cases answer <;> rfl

theorem Turn.opened
    {db : Database σ} {env : Environment} {m m' : Running σ} {hs : List Happening}
    (h : Turn db env m hs m') :
    m'.terminals.map label = m.terminals.map label ++ openedIn hs := by
  have hcall : ∀ {k stage u u' p}, m.terminals[k]? = some u → u.callStep stage = some (u', p) →
      (m.terminals.set k u').map label = m.terminals.map label :=
    fun hu hstep => map_label_set hu (advances_label (Terminal.advances_of_callStep hstep))
  cases h with
  | work hu works =>
      rw [(internal_work works _).opened, List.append_nil]
      exact map_label_set hu (works_label works)
  | start => simp [openedIn, label]
  | goOn _ hu hstep =>
      rw [(internal_callDeeds _ _ _).opened, List.append_nil]
      exact hcall hu hstep
  | answer _ hu hstep =>
      rw [openedIn_append, (internal_callDeeds _ _ _).opened, opened_leaves, terminals_receive]
      exact (hcall hu hstep).trans (List.append_nil _).symm
  | tear _ hstep =>
      rw [opened_tearing, List.append_nil]
      rcases Caller.step_cases hstep with
        ⟨_, _, _, -, -, rfl, -⟩ | ⟨k, stage, u, u', p, -, hu, hcallStep, rfl, -⟩
      · rfl
      · exact hcall hu hcallStep
  | _ => exact (List.append_nil _).symm

/-- The terminals that were started come first among those of the plan. -/
def Thread.Starts (starts names : List String) : Thread → Prop
  | .body rest | .calling _ _ _ rest => names ++ rest.filterMap Action.start? = starts
  | .ending _ _ | .returned _ => names <+: starts

theorem start?_of_operand?
    {a : Action} {x : Option String × Operand} (h : a.operand? = some x) : a.start? = none := by
  cases a with
  | start name => cases h
  | _ => rfl

theorem Turn.starts
    {db : Database σ} {env : Environment} {m m' : Running σ} {hs : List Happening}
    {starts : List String} (h : Turn db env m hs m')
    (hstarts : m.thread.Starts starts (m.terminals.map (·.name))) :
    m'.thread.Starts starts (m'.terminals.map (·.name)) := by
  have hnames : m'.terminals.map (·.name) =
      m.terminals.map (·.name) ++ (openedIn hs).map Prod.fst := by
    have hlabels := congrArg (List.map Prod.fst) h.opened
    simpa [Function.comp_def, label] using hlabels
  have hkept : openedIn hs = [] → m'.terminals.map (·.name) = m.terminals.map (·.name) := by
    intro hnone
    rw [hnames, hnone, List.map_nil, List.append_nil]
  cases h with
  | work _ works =>
      rw [hkept (internal_work works _).opened]
      exact hstarts
  | finish hthread | refuse hthread | fail hthread =>
      rw [hthread] at hstarts
      rw [hkept rfl]
      exact ⟨_, hstarts⟩
  | start hthread =>
      rw [hthread] at hstarts
      rw [hnames]
      simpa [openedIn, Thread.Starts, Action.start?] using hstarts
  | evaluate hthread ha =>
      rw [hthread] at hstarts
      rw [hkept rfl]
      simpa [Thread.Starts, Running.resume, start?_of_operand? ha] using hstarts
  | pass hthread | «return» hthread =>
      rw [hthread] at hstarts
      rw [hkept rfl]
      exact hstarts
  | begin hthread ha =>
      rw [hthread] at hstarts
      rw [hkept rfl]
      simpa [Thread.Starts, start?_of_operand? ha] using hstarts
  | goOn hthread =>
      rw [hthread] at hstarts
      rw [hkept (internal_callDeeds _ _ _).opened]
      exact hstarts
  | answer hthread =>
      rename_i k stage answer target rest u u' _ _
      rw [hthread] at hstarts
      rw [hkept (by simp [(internal_callDeeds _ _ _).opened, opened_leaves])]
      cases answer with
      | error e => exact ⟨_, hstarts⟩
      | _ => exact hstarts
  | tear hthread =>
      rename_i caller caller' outcome ts hstep
      rw [hthread] at hstarts
      rw [hkept (opened_tearing _ _)]
      exact hstarts

/-! ## What a schedule leaves behind -/

/-- The terminal on which something happens. -/
def Happening.terminal? : Happening → Option Nat
  | .did i _ | .closed i _ => some i
  | .opened _ _ | .left _ => none

/-- Things happen on terminals that there are. -/
theorem Turn.within
    {db : Database σ} {env : Environment} {m m' : Running σ} {hs : List Happening}
    (h : Turn db env m hs m') (hsound : m.Sound) {x : Happening} {k : Nat} (hx : x ∈ hs)
    (hk : x.terminal? = some k) : k < m.terminals.length := by
  have hdid : ∀ i (deeds : List Deed), i < m.terminals.length → x ∈ deeds.map (.did i) →
      k < m.terminals.length := by
    intro i deeds hi hin
    obtain ⟨deed, -, rfl⟩ := List.mem_map.mp hin
    cases hk
    exact hi
  have hlength : ∀ {i : Nat} {t : Terminal}, m.terminals[i]? = some t → i < m.terminals.length :=
    fun ht => (List.getElem?_eq_some_iff.mp ht).1
  cases h with
  | work ht =>
      rcases List.mem_append.mp hx with hin | hin
      · exact hdid _ _ (hlength ht) hin
      · obtain ⟨reply, -, rfl⟩ := List.mem_map.mp hin
        cases hk
        exact hlength ht
  | begin hthread ha hi hcall =>
      obtain rfl := List.mem_singleton.mp hx
      cases hk
      exact hsound.names _ _ (mem_of_terminalOf? hi)
  | goOn _ ht => exact hdid _ _ (hlength ht) hx
  | answer _ ht =>
      rename_i answer _ _ _ _ _ _
      rcases List.mem_append.mp hx with hin | hin
      · exact hdid _ _ (hlength ht) hin
      · cases answer with
        | error e =>
            obtain rfl := List.mem_singleton.mp hin
            cases hk
        | _ => cases hin
  | tear hthread hstep =>
      have hteardown := hsound.thread
      rw [hthread] at hteardown
      rcases Caller.step_cases hstep with
        ⟨i, call, todo, hidle, htodo, -⟩ | ⟨i, stage, t, t', p, hcurrent, ht, -⟩
      · rw [tearing_idle hidle htodo] at hx
        refine hdid i [.began call] ?_ hx
        exact (Teardown.calls hteardown (i, call) (by rw [htodo]; exact List.mem_cons_self)).1
      · rw [tearing_busy hcurrent ht] at hx
        exact hdid i _ (hlength ht) hx
  | finish | refuse | fail | start =>
      obtain rfl := List.mem_singleton.mp hx
      cases hk
  | evaluate | pass | «return» => cases hx

/-- A terminal that was just started, on which nothing has happened. -/
theorem tended_new
    {name : String} {connection i : Nat} {h : List Happening}
    (hnothing : ∀ x ∈ h, x.terminal? ≠ some i) : Tended { name, connection } 0 i h := by
  have hdeeds : deedsOn i h = [] := by
    refine List.filterMap_eq_nil_iff.mpr fun x hx => ?_
    have hne := hnothing x hx
    cases x <;> simp_all [Happening.deed?, Happening.terminal?]
  have hclosings : closingsOn i h = [] := by
    refine List.filterMap_eq_nil_iff.mpr fun x hx => ?_
    have hne := hnothing x hx
    cases x <;> simp_all [Happening.terminal?]
  have herrands : errandsOn i h = [] := by
    refine List.filterMap_eq_nil_iff.mpr fun x hx => ?_
    have hne := hnothing x hx
    cases x <;> simp_all [Happening.errand?, Happening.terminal?]
  have hledger : ledgerOn i h = {} := by rw [ledgerOn, hdeeds, Ledger.recordAll_nil]
  have hfresh : Terminal.Fresh { name, connection } := ⟨name, connection, 1, rfl⟩
  constructor
  · rw [hledger]
    exact hfresh.accounted
  · rw [hledger, givenOn, hdeeds]
    exact ⟨⟨[], Terminal.Carries.idle, rfl⟩, by simp⟩
  · exact Nat.one_ne_zero
  · rw [hledger]
  · rw [hclosings]
    rfl
  · rw [herrands, hledger, hclosings]
    rfl

/-- What holds of a case and its history at all times. -/
structure Chronicle (p : Plan) (m : Running σ) (h : List Happening) : Prop where
  sound : m.Sound
  tells : m.thread.Tells m.terminals.length h
  opened : openedIn h = m.terminals.map label
  starts : m.thread.Starts p.starts (m.terminals.map (·.name))
  within : ∀ x ∈ h, ∀ k, x.terminal? = some k → k < m.terminals.length
  tended : ∀ i t, m.terminals[i]? = some t → Tended t (m.stagesOn i) i h
  joins : ∀ i t, m.terminals[i]? = some t → m.thread.Joins i t

theorem chronicle_new (w : σ) (p : Plan) : Chronicle p (Running.new w p) [] where
  sound := Running.sound_new w p
  tells := ⟨rfl, by simp [callsIn]⟩
  opened := rfl
  starts := rfl
  within := by simp
  tended := by simp [Running.new]
  joins := by simp [Running.new]

theorem Chronicle.turn
    {db : Database σ} {env : Environment} {p : Plan} {m m' : Running σ}
    {h hs : List Happening} (hchronicle : Chronicle p m h) (hturn : Turn db env m hs m') :
    Chronicle p m' (h ++ hs) := by
  obtain ⟨sound, tells, opened, starts, within, tended, joins⟩ := hchronicle
  have hlength := hturn.length_le
  -- nothing has happened yet on a terminal that is new
  have hwithin : ∀ x ∈ h ++ hs, ∀ k, x.terminal? = some k → k < m.terminals.length := by
    intro x hx k hk
    rcases List.mem_append.mp hx with hold | hnew
    · exact within x hold k hk
    · exact hturn.within sound hnew hk
  constructor
  · exact sound.turn hturn
  · exact hturn.tells tells
  · rw [openedIn_append, opened, hturn.opened]
  · exact hturn.starts starts
  · intro x hx k hk
    exact Nat.lt_of_lt_of_le (hwithin x hx k hk) hlength
  · intro i t' ht'
    by_cases hi : i < m.terminals.length
    · have ht := List.getElem?_eq_getElem hi
      obtain ⟨u, hu, htended⟩ := hturn.tended sound.thread ht (tended i _ ht)
      rw [hu] at ht'
      cases ht'
      exact htended
    · obtain ⟨name, connection, rest, rfl, hthread⟩ := hturn.fresh (Nat.not_lt.mp hi) ht'
      rw [Running.stagesOn, hthread]
      exact tended_new fun x hx hk => hi (hwithin x hx i hk)
  · intro i t' ht'
    by_cases hi : i < m.terminals.length
    · have ht := List.getElem?_eq_getElem hi
      exact hturn.joins sound.thread tells ht ht' (joins i _ ht)
    · obtain ⟨name, connection, rest, rfl, hthread⟩ := hturn.fresh (Nat.not_lt.mp hi) ht'
      rw [hthread]
      rfl

theorem Chronicle.run
    {db : Database σ} {env : Environment} {p : Plan} {m m' : Running σ} {movers : List Mover}
    {h : List Happening} (hchronicle : Chronicle p m h)
    (hrun : m.runSchedule db env movers = some m') :
    Chronicle p m' (h ++ m.history db env movers) := by
  induction movers generalizing m h with
  | nil =>
      cases hrun
      rw [Running.history, List.append_nil]
      exact hchronicle
  | cons mover movers ih =>
      obtain ⟨next, hmove, hrest⟩ := Option.bind_eq_some_iff.mp hrun
      have hlater := ih (hchronicle.turn (turn_of_move hmove)) hrest
      rw [List.append_assoc] at hlater
      simp only [Running.history, hmove]
      exact hlater

/-! ## What holds when the case has returned -/

/-- What was given to a worker came with the calls on its terminal. -/
theorem givenOn_eq_calls (i : Nat) (h : List Happening) :
    givenOn i h = (callsIn h).flatMap fun x => if x.1 = i then x.2.tasks else [] := by
  induction h with
  | nil => rfl
  | cons x h ih =>
      have hgiven : givenOn i (x :: h) = givenOn i [x] ++ givenOn i h := givenOn_append i [x] h
      have hcalls : callsIn (x :: h) = callsIn [x] ++ callsIn h := callsIn_append [x] h
      rw [hgiven, hcalls, List.flatMap_append, ih]
      congr 1
      cases x with
      | did k deed =>
          have hdid : givenOn i [.did k deed] = if k = i then deed.given else [] := by
            by_cases hk : k = i <;> simp [givenOn, deedsOn, Happening.deed?, hk]
          rw [hdid]
          cases deed with
          | began call => simp [callsIn, Deed.given]
          | _ => exact ite_self _
      | _ => rfl

theorem flatMap_range_single
    {α : Type} (n i : Nat) (xs : List α) :
    ((List.range n).flatMap fun k => if k = i then xs else []) = if i < n then xs else [] := by
  induction n with
  | zero => simp
  | succ n ih =>
      rw [List.range_succ, List.flatMap_append, ih]
      rcases Nat.lt_trichotomy i n with hlt | rfl | hgt
      · simp [hlt, Nat.lt_succ_of_lt hlt, Nat.ne_of_gt hlt]
      · simp
      · simp [Nat.not_lt_of_gt hgt, Nat.not_lt_of_le hgt, Nat.ne_of_lt hgt]

/-- A teardown gives every worker one task. -/
theorem tasks_teardownCalls
    {n i : Nat} (hi : i < n) :
    ((teardownCalls n).flatMap fun x => if x.1 = i then x.2.tasks else []) = [.shutdown] := by
  simp only [teardownCalls, List.flatMap_append, List.flatMap_map, flatMap_range_single, if_pos hi]
  rfl

theorem shutdown_notMem_tasks
    {call : Call} (h : call.stage.Ordinary) : .shutdown ∉ call.tasks := by
  cases call with
  | close => exact absurd rfl h.1
  | _ => simp [Call.tasks]

/-- The body gives no worker the task to leave. -/
theorem InBody.shutdown_notMem
    {h : List Happening} (hbody : InBody h) (i : Nat) : .shutdown ∉ givenOn i h := by
  rw [givenOn_eq_calls]
  intro hin
  obtain ⟨x, hx, htask⟩ := List.mem_flatMap.mp hin
  split at htask
  · exact shutdown_notMem_tasks (hbody.calls x hx) htask
  · cases htask

/-- The terminals of a case as the teardown leaves them, by what happened before the body ended and
after it. -/
structure TornDown (p : Plan) (m : Running σ) (before after : List Happening) : Prop where
  /-- The body started all terminals, in the order of the plan. -/
  opened : openedIn before = m.terminals.map label ∧ openedIn after = []
  starts : m.terminals.map (·.name) <+: p.starts
  /-- The body ended once. -/
  left : leftIn before = [] ∧ leftIn after = []
  /-- The body closes and joins nothing. -/
  body : ∀ i, (i, .close) ∉ callsIn before ∧ (i, .join) ∉ callsIn before
  /-- Every terminal is closed once, and then every terminal is joined once. -/
  teardown : callsIn after =
    (List.range m.terminals.length).map (·, .close) ++
      (List.range m.terminals.length).map (·, .join)
  /-- No worker is left. -/
  gone : ∀ t ∈ m.terminals, t.isGone = true
  /-- The tasks that the body gave a worker have run and its connection was closed after them, or
  the database did not survive one of them. -/
  served : ∀ i, i < m.terminals.length →
    Served (givenOn i before) (errandsOn i (before ++ after))

theorem Chronicle.tornDown
    {p : Plan} {m : Running σ} {h : List Happening} {outcome : Outcome}
    (hchronicle : Chronicle p m h) (hreturned : m.thread = .returned outcome) :
    ∃ before after, h = before ++ .left outcome :: after ∧ TornDown p m before after := by
  have htells := hchronicle.tells
  have hstarts := hchronicle.starts
  rw [hreturned] at htells hstarts
  obtain ⟨before, after, rfl, hbody, honce, hopened, hcalls⟩ := htells
  have hall := hchronicle.opened
  refine ⟨before, after, rfl, ⟨?_, hopened⟩, hstarts, ⟨hbody.stays, honce⟩, ?_, hcalls, ?_, ?_⟩
  · rw [← hall, openedIn_append]
    have hrest : openedIn (.left outcome :: after) = openedIn after := rfl
    rw [hrest, hopened, List.append_nil]
  · intro i
    constructor
    · intro hin
      exact (hbody.calls _ hin).1 rfl
    · intro hin
      exact (hbody.calls _ hin).2 (by simp [Call.stage])
  · intro t ht
    obtain ⟨i, hi, rfl⟩ := List.mem_iff_getElem.mp ht
    have hjoins := hchronicle.joins i _ (List.getElem?_eq_getElem hi)
    rw [hreturned] at hjoins
    exact hjoins
  · intro i hi
    have ht := List.getElem?_eq_getElem hi
    have hjoins := hchronicle.joins i _ ht
    have htended := hchronicle.tended i _ ht
    rw [Running.stagesOn, hreturned] at htended
    rw [hreturned] at hjoins
    have hafter : givenOn i after = [.shutdown] := by
      rw [givenOn_eq_calls, hcalls]
      exact tasks_teardownCalls hi
    have hgiven : givenOn i (before ++ .left outcome :: after) =
        givenOn i before ++ [.shutdown] := by
      rw [givenOn_append, ← hafter]
      rfl
    have herrands : errandsOn i (before ++ .left outcome :: after) =
        errandsOn i (before ++ after) := by
      rw [errandsOn_append, errandsOn_append]
      rfl
    rw [← herrands]
    exact htended.served hjoins hgiven (hbody.shutdown_notMem i)

end Case
end CaseSuite
