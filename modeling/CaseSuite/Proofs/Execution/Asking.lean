import CaseSuite.Proofs.Execution.Answers
import CaseSuite.Proofs.Execution.Planning

/-!
# Waiting for a request

The thread makes the calls of a request one after the other and then reads the answer, while the
workers move when they like.  `Underway` says how far it has come and which tasks the terminal was
given by then.  A worker changes nothing about that, the thread is not stuck on its way, and after
the wait nothing is pending.  `Yielding` goes on until the value that was read is bound.
-/

namespace CaseSuite

open Terminal (Answer Call Deed Stage Task Works)

/-- The calls of a request that is waited for. -/
def Request.calls (r : Request) : List Call :=
  [Call.execute r.query] ++
    (if r.fetch then [Call.store (Case.Run.resultName r.target)] else []) ++ [Call.wait]

theorem Request.tasks_calls (r : Request) : r.calls.flatMap Call.tasks = r.tasks := by
  unfold calls tasks
  by_cases hfetch : r.fetch = true
  · simp [hfetch, Call.tasks]
  · simp [hfetch, Call.tasks]

namespace Case

variable {σ : Type}

/-! ## The thread -/

/-- Nothing is pending on a terminal. -/
def Drained (m : Running σ) (i : Nat) : Prop :=
  ∀ t, m.terminals[i]? = some t → t.pending = 0

/-- A step of a worker, as the thread sees it: it gives no task and leaves nothing more pending. -/
structure Aside (m : Running σ) (hs : List Happening) (m' : Running σ) : Prop where
  thread : m'.thread = m.thread
  names : m'.names = m.names
  given : ∀ i, givenOn i hs = []
  drained : ∀ i, Drained m i → Drained m' i

theorem givenOn_began
    (i : Nat) (call : Call) : givenOn i [.did i (.began call)] = call.tasks := by
  simp [givenOn, deedsOn, Happening.deed?, Deed.given]

theorem givenOn_callDeeds
    (t : Terminal) (stage : Stage) (i k : Nat) :
    givenOn i ((t.callDeeds stage).map (.did k)) = [] := by
  rw [givenOn, deedsOn_did]
  split
  · cases stage with
    | sending task =>
        rw [Terminal.callDeeds]
        split <;> rfl
    | _ => rfl
  · rfl

section Turns

variable {db : Database σ} {env : Environment} {m m' : Running σ} {h hs : List Happening} {i : Nat}

theorem aside_work
    {w : σ} {k : Nat} {t t' : Terminal} {deeds : List Deed} (ht : m.terminals[k]? = some t)
    (works : Works db m.world t deeds w t') :
    Aside m (deeds.map (.did k) ++ (closings db m.world t).map (.closed k))
      { m with world := w, terminals := m.terminals.set k t' } where
  thread := rfl
  names := rfl
  given i := by
    rw [givenOn, deedsOn_append, deedsOn_did, deedsOn_closed, List.append_nil]
    split
    · cases works <;> rfl
    · rfl
  drained i hdrained u hu := by
    by_cases hk : k = i
    · subst hk
      have hpending := hdrained t ht
      rw [List.getElem?_set_self (List.getElem?_eq_some_iff.mp ht).1] at hu
      cases hu
      cases works with
      | finish => exact Nat.sub_eq_zero_of_le (by rw [hpending]; exact Nat.zero_le 1)
      | refuse => rfl
      | _ => exact hpending
    · rw [List.getElem?_set_ne hk] at hu
      exact hdrained u hu

/-- A body whose next action is a call begins it, unless a worker moves. -/
theorem Turn.of_body
    (hturn : Turn db env m hs m') {a : Action} {as : List Action} {target : Option String}
    {name : String} {method : Method} {argument : Option String} {call : Call}
    (hthread : m.thread = .body (a :: as))
    (ha : a.operand? = some (target, .call name method argument))
    (hi : terminalOf? m.names name = some i) (hcall : callOf? method argument = some call) :
    Aside m hs m' ∨ hs = [.did i (.began call)] ∧
      m' = { m with thread := .calling i call.stage target as } := by
  cases hturn with
  | work ht works => exact Or.inl (aside_work ht works)
  | begin hthread' ha' hi' hcall' =>
      right
      rw [hthread] at hthread'
      cases hthread'
      rw [ha] at ha'
      cases ha'
      rw [hi] at hi'
      cases hi'
      rw [hcall] at hcall'
      cases hcall'
      exact ⟨rfl, rfl⟩
  | evaluate hthread' ha' hb =>
      rw [hthread] at hthread'
      cases hthread'
      rw [ha] at ha'
      cases ha'
      cases hb
  | start hthread' | refuse hthread' | pass hthread' | fail hthread' =>
      rw [hthread] at hthread'
      cases hthread'
      cases ha
  | finish hthread' | goOn hthread' | answer hthread' | tear hthread' | «return» hthread' =>
      rw [hthread] at hthread'
      cases hthread'

/-- A call that is under way goes on or returns, unless a worker moves. -/
theorem Turn.of_calling
    (hturn : Turn db env m hs m') {stage : Stage} {target : Option String} {as : List Action}
    (hthread : m.thread = .calling i stage target as) :
    Aside m hs m' ∨
      (∃ t t' next, m.terminals[i]? = some t ∧ t.callStep stage = some (t', .goOn next) ∧
        givenOn i hs = [] ∧ m' = { m with
          terminals := m.terminals.set i t'
          thread := .calling i next target as }) ∨
      ∃ t t' answer, m.terminals[i]? = some t ∧ t.callStep stage = some (t', .done answer) ∧
        givenOn i hs = [] ∧
        m' = { m with terminals := m.terminals.set i t' }.receive target as answer := by
  cases hturn with
  | work ht works => exact Or.inl (aside_work ht works)
  | goOn hthread' ht hstep =>
      rw [hthread] at hthread'
      cases hthread'
      exact Or.inr (Or.inl ⟨_, _, _, ht, hstep, givenOn_callDeeds _ _ _ _, rfl⟩)
  | answer hthread' ht hstep =>
      rw [hthread] at hthread'
      cases hthread'
      refine Or.inr (Or.inr ⟨_, _, _, ht, hstep, ?_, rfl⟩)
      rw [givenOn_append, givenOn_callDeeds, givenOn, deedsOn_leaves]
      rfl
  | finish hthread' | start hthread' | refuse hthread' | evaluate hthread' | pass hthread' =>
      rw [hthread] at hthread'
      cases hthread'
  | fail hthread' | begin hthread' | tear hthread' | «return» hthread' =>
      rw [hthread] at hthread'
      cases hthread'

/-- Bindings are added and never taken away. -/
theorem Turn.names_suffix
    (hturn : Turn db env m hs m') : ∃ newer, m'.names = newer ++ m.names := by
  have hresume : ∀ {n : Running σ} {target : Option String} {b : Binding} {as : List Action},
      n.names = m.names → ∃ newer, (n.resume target b as).names = newer ++ m.names := by
    intro n target b as hsame
    cases target with
    | none => exact ⟨[], hsame⟩
    | some name => exact ⟨[(name, b)], congrArg ((name, b) :: ·) hsame⟩
  cases hturn with
  | start => exact ⟨[_], rfl⟩
  | evaluate => exact hresume rfl
  | answer =>
      rename_i stage answer _ _ _ _ _ _ _
      cases answer with
      | nothing => exact ⟨[], rfl⟩
      | value v => exact hresume rfl
      | error e => exact ⟨[], rfl⟩
  | _ => exact ⟨[], rfl⟩

end Turns

/-! ## The calls of a request -/

/-- A call at this stage gives nothing back. -/
def isSilent : Stage → Bool
  | .marking _ | .counting _ | .sending _ | .uncounting _ | .rejecting _ | .waiting => true
  | _ => false

theorem isSilent_goOn
    {t t' : Terminal} {stage next : Stage} (hsilent : isSilent stage = true)
    (hstep : t.callStep stage = some (t', .goOn next)) :
    isSilent next = true ∧ stage ≠ .waiting := by
  have hadvances := Terminal.advances_of_callStep hstep
  generalize t.callDeeds stage = deeds at hadvances
  cases hadvances with
  | claim => cases hsilent
  | _ => exact ⟨rfl, by simp⟩

theorem isSilent_done
    {t t' : Terminal} {stage : Stage} {answer : Answer} (hsilent : isSilent stage = true)
    (hstep : t.callStep stage = some (t', .done answer)) :
    answer = .nothing ∧ (stage = .waiting → t'.pending = 0) := by
  cases stage with
  | sending task =>
      simp only [Terminal.callStep] at hstep
      split at hstep
      · cases hstep
      · split at hstep
        · cases hstep
          exact ⟨rfl, by simp⟩
        · cases hstep
  | rejecting task =>
      cases hstep
      exact ⟨rfl, by simp⟩
  | waiting =>
      simp only [Terminal.callStep] at hstep
      split at hstep
      · rename_i hpending
        cases hstep
        exact ⟨rfl, fun _ => hpending⟩
      · cases hstep
  | counting task =>
      simp only [Terminal.callStep] at hstep
      split at hstep <;> cases hstep
  | marking name => cases hstep
  | uncounting task => cases hstep
  | _ => cases hsilent

/-- The action makes the call on the terminal of a name. -/
def Asks (name : String) (a : Action) (call : Call) : Prop :=
  ∃ method argument, a = .run (.call name method argument) ∧ callOf? method argument = some call

theorem asks_sending
    {r : Request} (hsync : r.timing = .sync) :
    List.Forall₂ (Asks (Plan.terminalName r.target)) (Plan.sending r) r.calls := by
  have hcalls : ∀ {method argument call}, callOf? method argument = some call →
      Asks (Plan.terminalName r.target)
        (.run (.call (Plan.terminalName r.target) method argument)) call :=
    fun hcall => ⟨_, _, rfl, hcall⟩
  dsimp only [Plan.sending, Request.calls]
  rw [if_pos hsync]
  refine List.rel_append (List.rel_append ?_ ?_) ?_
  · exact List.Forall₂.cons (hcalls rfl) List.Forall₂.nil
  · by_cases hfetch : r.fetch = true
    · rw [if_pos hfetch, if_pos hfetch]
      exact List.Forall₂.cons (hcalls rfl) List.Forall₂.nil
    · rw [if_neg hfetch, if_neg hfetch]
      exact List.Forall₂.nil
  · exact List.Forall₂.cons (hcalls rfl) List.Forall₂.nil

theorem answer_asks (r : Request) :
    ∃ method argument, Plan.answer r = .call (Plan.terminalName r.target) method argument ∧
      callOf? method argument = some (Run.answerCall r) := by
  unfold Plan.answer Run.answerCall
  by_cases hfetch : r.fetch = true
  · rw [if_pos hfetch, if_pos hfetch]
    exact ⟨_, _, rfl, rfl⟩
  · rw [if_neg hfetch, if_neg hfetch]
    exact ⟨_, _, rfl, rfl⟩

/-- Every call of a request gives nothing back, and the last one waits. -/
theorem stage_of_calls
    {r : Request} {done todo : List Call} {call : Call} (h : done ++ call :: todo = r.calls) :
    isSilent call.stage = true ∧ (todo = [] → call.stage = .waiting) := by
  have hall : ∀ c ∈ r.calls, isSilent c.stage = true := by
    unfold Request.calls
    by_cases hfetch : r.fetch = true <;> simp [hfetch, Call.stage, isSilent]
  refine ⟨hall call (by simp [← h]), ?_⟩
  rintro rfl
  obtain ⟨-, hlast⟩ := List.append_inj' h rfl
  cases hlast
  rfl

/-- How far the thread has come with a request, after which tasks. -/
inductive Underway (r : Request) (i : Nat) (tmp : String) (rest : List Action) (given : List Task)
    (m : Running σ) (h : List Happening) : Prop
  /-- It is about to make the next call, or to read the answer. -/
  | ask {as : List Action} {done todo : List Call}
      (thread : m.thread = .body (as ++ .bind tmp (Plan.answer r) :: rest))
      (asks : List.Forall₂ (Asks (Plan.terminalName r.target)) as todo)
      (calls : done ++ todo = r.calls)
      (handed : givenOn i h = given ++ done.flatMap Call.tasks)
      (drained : todo = [] → Drained m i)
  | call {as : List Action} {done todo : List Call} {stage : Stage}
      (thread : m.thread = .calling i stage none (as ++ .bind tmp (Plan.answer r) :: rest))
      (asks : List.Forall₂ (Asks (Plan.terminalName r.target)) as todo)
      (calls : done ++ todo = r.calls)
      (handed : givenOn i h = given ++ done.flatMap Call.tasks)
      (silent : isSilent stage = true) (waits : todo = [] → stage = .waiting)
  | read (thread : m.thread = .calling i (Run.answerCall r).stage (some tmp) rest)
      (handed : givenOn i h = given ++ r.tasks) (drained : Drained m i)

namespace Underway

variable {db : Database σ} {env : Environment} {r : Request} {i : Nat} {tmp : String}
  {rest : List Action} {given : List Task} {m m' : Running σ} {h hs : List Happening} {v : Value}

theorem aside
    (hunderway : Underway r i tmp rest given m h) (haside : Aside m hs m') :
    Underway r i tmp rest given m' (h ++ hs) := by
  have hgiven : givenOn i (h ++ hs) = givenOn i h := by
    rw [givenOn_append, haside.given, List.append_nil]
  cases hunderway with
  | ask thread asks calls handed drained =>
      exact ask (haside.thread.trans thread) asks calls (hgiven.trans handed)
        fun htodo => haside.drained i (drained htodo)
  | call thread asks calls handed silent waits =>
      exact call (haside.thread.trans thread) asks calls (hgiven.trans handed) silent waits
  | read thread handed drained =>
      exact read (haside.thread.trans thread) (hgiven.trans handed) (haside.drained i drained)

/-- A turn takes the thread further, or it binds the value that is read. -/
theorem turn
    (hunderway : Underway r i tmp rest given m h)
    (hname : terminalOf? m.names (Plan.terminalName r.target) = some i)
    (hreads : m.thread = .calling i (Run.answerCall r).stage (some tmp) rest →
      givenOn i h = given ++ r.tasks → Drained m i → ∀ t, m.terminals[i]? = some t →
      t.callStep (Run.answerCall r).stage = some (t, .done (.value v)))
    (hturn : Turn db env m hs m') :
    Underway r i tmp rest given m' (h ++ hs) ∧ m'.names = m.names ∨
      m'.thread = .body rest ∧ m'.names = (tmp, .value v) :: m.names := by
  have hmoved : Aside m hs m' →
      Underway r i tmp rest given m' (h ++ hs) ∧ m'.names = m.names ∨
        m'.thread = .body rest ∧ m'.names = (tmp, .value v) :: m.names :=
    fun haside => Or.inl ⟨hunderway.aside haside, haside.names⟩
  cases hunderway with
  | ask thread asks calls handed drained =>
      rename_i as done todo
      cases asks with
      | nil =>
          -- all calls have returned
          obtain ⟨method, argument, hanswer, hcall⟩ := answer_asks r
          rw [List.append_nil] at calls
          rcases hturn.of_body thread (by rw [Action.operand?, hanswer]) hname hcall with
            haside | ⟨rfl, rfl⟩
          · exact hmoved haside
          · refine Or.inl ⟨read rfl ?_ (drained rfl), rfl⟩
            have hnothing : (Run.answerCall r).tasks = [] := by
              unfold Run.answerCall
              split <;> rfl
            rw [givenOn_append, handed, givenOn_began, hnothing, List.append_nil, calls,
              r.tasks_calls]
      | cons ask others =>
          rename_i a call as todo
          obtain ⟨method, argument, rfl, hcall⟩ := ask
          obtain ⟨hsilent, hwaits⟩ := stage_of_calls calls
          rcases hturn.of_body thread rfl hname hcall with haside | ⟨rfl, rfl⟩
          · exact hmoved haside
          · have hcalls : (done ++ [call]) ++ todo = r.calls := by simpa using calls
            refine Or.inl ⟨.call rfl others hcalls ?_ hsilent hwaits, rfl⟩
            rw [givenOn_append, handed, givenOn_began]
            simp
  | call thread asks calls handed silent waits =>
      rcases hturn.of_calling thread with
        haside | ⟨t, t', next, ht, hstep, hnone, rfl⟩ | ⟨t, t', answer, ht, hstep, hnone, rfl⟩
      · exact hmoved haside
      · obtain ⟨hnext, hne⟩ := isSilent_goOn silent hstep
        refine Or.inl ⟨.call rfl asks calls ?_ hnext fun htodo => absurd (waits htodo) hne, rfl⟩
        rw [givenOn_append, hnone, List.append_nil, handed]
      · obtain ⟨rfl, hpending⟩ := isSilent_done silent hstep
        refine Or.inl ⟨ask rfl asks calls ?_ ?_, rfl⟩
        · rw [givenOn_append, hnone, List.append_nil, handed]
        · intro htodo u hu
          have hi : i < m.terminals.length := (List.getElem?_eq_some_iff.mp ht).1
          have hset : (m.terminals.set i t')[i]? = some u := hu
          rw [List.getElem?_set_self hi] at hset
          cases hset
          exact hpending (waits htodo)
  | read thread handed drained =>
      rcases hturn.of_calling thread with
        haside | ⟨t, t', next, ht, hstep, -, rfl⟩ | ⟨t, t', answer, ht, hstep, -, rfl⟩
      · exact hmoved haside
      · rw [hreads thread handed drained t ht] at hstep
        cases hstep
      · rw [hreads thread handed drained t ht] at hstep
        cases hstep
        exact Or.inr ⟨rfl, rfl⟩

theorem hasLeft
    (hunderway : Underway r i tmp rest given m h) : m.hasLeft = false := by
  cases hunderway with
  | ask thread | call thread | read thread => rw [Running.hasLeft, thread]

/-- The thread does not get stuck on its way. -/
theorem not_final
    (hunderway : Underway r i tmp rest given m h)
    (hname : terminalOf? m.names (Plan.terminalName r.target) = some i) (hsound : m.Sound)
    (hfinal : ∀ m', ¬ Running.Step db env m m') : False := by
  have hcalls : ∀ {method argument call target as},
      callOf? method argument = some call →
      m.evaluate (.call (Plan.terminalName r.target) method argument) target as ≠ none := by
    intro method argument call target as hcall
    simp [Running.evaluate, hname, hcall]
  rcases hsound.final hfinal with ⟨outcome, hreturned⟩ | ⟨a, later, hthread, hstuck⟩
  · cases hunderway with
    | ask thread | call thread | read thread =>
        rw [hreturned] at thread
        cases thread
  · cases hunderway with
    | call thread | read thread =>
        rw [hthread] at thread
        cases thread
    | ask thread asks =>
        rw [hthread] at thread
        cases asks with
        | nil =>
            obtain ⟨method, argument, hanswer, hcall⟩ := answer_asks r
            cases thread
            rw [Running.act, hanswer] at hstuck
            exact hcalls hcall hstuck
        | cons ask others =>
            obtain ⟨method, argument, rfl, hcall⟩ := ask
            cases thread
            exact hcalls hcall hstuck

end Underway

/-! ## The value that is bound -/

/-- A body whose next action copies a binding does so, unless a worker moves. -/
theorem Turn.of_copy
    {db : Database σ} {env : Environment} {m m' : Running σ} {hs : List Happening}
    (hturn : Turn db env m hs m') {x name : String} {b : Binding} {as : List Action}
    (hthread : m.thread = .body (.bind x (.variable name) :: as))
    (hb : m.names.lookup name = some b) :
    Aside m hs m' ∨ m' = m.resume (some x) b as := by
  cases hturn with
  | work ht works => exact Or.inl (aside_work ht works)
  | evaluate hthread' ha hb' =>
      rw [hthread] at hthread'
      cases hthread'
      cases ha
      rw [binding?, hb] at hb'
      cases hb'
      exact Or.inr rfl
  | begin hthread' ha =>
      rw [hthread] at hthread'
      cases hthread'
      cases ha
  | finish hthread' | start hthread' | refuse hthread' | pass hthread' | fail hthread' =>
      rw [hthread] at hthread'
      cases hthread'
  | goOn hthread' | answer hthread' | tear hthread' | «return» hthread' =>
      rw [hthread] at hthread'
      cases hthread'

/-- A value was bound to a temporary, and to the variable to which the body then copies it. -/
structure Bound (names : Bindings) (tmp : String) (rest : List Action) (v : Value)
    (m : Running σ) : Prop where
  temporary : ∃ newer, m.names = newer ++ (tmp, .value v) :: names
  copied : ∀ x as, rest = .bind x (.variable tmp) :: as →
    ∃ newer, m.names = newer ++ (x, .value v) :: (tmp, .value v) :: names

/-- How far a request has come whose value is to be this one. -/
inductive Yielding (r : Request) (i : Nat) (tmp : String) (rest : List Action) (given : List Task)
    (names : Bindings) (v : Value) (m : Running σ) (h : List Happening) : Prop
  | underway (progress : Underway r i tmp rest given m h) (unbound : m.names = names)
  | arrived (thread : m.thread = .body rest) (binds : m.names = (tmp, .value v) :: names)
  | past (binds : Bound names tmp rest v m)

theorem Bound.turn
    {db : Database σ} {env : Environment} {names : Bindings} {tmp : String} {rest : List Action}
    {v : Value} {m m' : Running σ} {hs : List Happening} (h : Bound names tmp rest v m)
    (hturn : Turn db env m hs m') : Bound names tmp rest v m' := by
  obtain ⟨more, hmore⟩ := hturn.names_suffix
  obtain ⟨⟨newer, hnewer⟩, hcopied⟩ := h
  constructor
  · exact ⟨more ++ newer, by rw [hmore, hnewer, List.append_assoc]⟩
  · intro x as hrest
    obtain ⟨later, hlater⟩ := hcopied x as hrest
    exact ⟨more ++ later, by rw [hmore, hlater, List.append_assoc]⟩

theorem Yielding.turn
    {db : Database σ} {env : Environment} {r : Request} {i : Nat} {tmp : String}
    {rest : List Action} {given : List Task} {names : Bindings} {v : Value} {m m' : Running σ}
    {h hs : List Happening} (hyielding : Yielding r i tmp rest given names v m h)
    (hname : terminalOf? names (Plan.terminalName r.target) = some i)
    (hreads : m.thread = .calling i (Run.answerCall r).stage (some tmp) rest →
      givenOn i h = given ++ r.tasks → Drained m i → ∀ t, m.terminals[i]? = some t →
      t.callStep (Run.answerCall r).stage = some (t, .done (.value v)))
    (hturn : Turn db env m hs m') :
    Yielding r i tmp rest given names v m' (h ++ hs) := by
  cases hyielding with
  | underway progress unbound =>
      subst unbound
      rcases progress.turn hname hreads hturn with ⟨hprogress, hnames⟩ | ⟨hthread, hnames⟩
      · exact .underway hprogress hnames
      · exact .arrived hthread hnames
  | arrived thread binds =>
      by_cases hcopy : ∃ x as, rest = .bind x (.variable tmp) :: as
      · obtain ⟨x, as, rfl⟩ := hcopy
        have hvalue : m.names.lookup tmp = some (.value v) := by
          rw [binds]
          exact List.lookup_cons_self
        rcases hturn.of_copy thread hvalue with haside | rfl
        · exact .arrived (haside.thread.trans thread) (haside.names.trans binds)
        · refine .past ⟨⟨[(x, .value v)], ?_⟩, ?_⟩
          · simp [Running.resume, binds]
          · rintro other later ⟨⟩
            exact ⟨[], by simp [Running.resume, binds]⟩
      · refine .past (Bound.turn ⟨⟨[], binds⟩, ?_⟩ hturn)
        intro x as hrest
        exact absurd ⟨x, as, hrest⟩ hcopy
  | past binds => exact .past (binds.turn hturn)

end Case

end CaseSuite
