import CaseSuite.Proofs.Terminal.Order
import CaseSuite.Run.Case

/-!
# Turns of a running case

`Turn` lists what one step of a running case can be: a step of a worker, the next action of the
body, a stage of a call or a stage of the teardown.  A turn names what happens by it.  As each
single terminal sees it a turn is a visit, so terminals stay in order whatever is scheduled.  Every
schedule comes to an end.
-/

namespace CaseSuite

open Terminal (Answer Call Caller Deed Orderly Progress Stage Task Visit Works)

/-- The name that waits for the value of an action, and the operand that has it. -/
def Action.operand? : Action → Option (Option String × Operand)
  | .bind target value => some (some target, value)
  | .run value => some (none, value)
  | .start _ | .check _ _ _ => none

namespace Case

variable {σ : Type}

/-- What an operand stands for if it makes no call. -/
def binding? (names : Bindings) : Operand → Option Binding
  | .text content => some (.value (.text content))
  | .int n => some (.value (.int n))
  | .float x => some (.value (.float x))
  | .variable name => names.lookup name
  | .call _ _ _ => none

/-! ## What happens -/

/-- One thing that happens in a running case. -/
inductive Happening where
  /-- A terminal was started. -/
  | opened (name : String) (connection : Nat)
  | did (terminal : Nat) (deed : Deed)
  /-- A worker asked the database to close the connection of its terminal. -/
  | closed (terminal : Nat) (reply : Reply Unit)
  /-- The body ended. -/
  | left (outcome : Outcome)

/-- The answers that a worker gets by its next step if that closes the connection. -/
def closings (db : Database σ) (w : σ) (t : Terminal) : List (Reply Unit) :=
  match t.phase with
  | .closing => [(db.close w t.connection).1]
  | _ => []

/-- A read that fails ends the body. -/
def leaves : Answer → List Happening
  | .error e => [.left (.error (.run e))]
  | .nothing | .value _ => []

/-- What the teardown does next. -/
def tearing (ts : List Terminal) (caller : Caller) : List Happening :=
  match caller.current, caller.todo with
  | some (i, stage), _ =>
      match ts[i]? with
      | some t => (t.callDeeds stage).map (.did i)
      | none => []
  | none, (i, call) :: _ => [.did i (.began call)]
  | none, [] => []

theorem tearing_idle
    {ts : List Terminal} {caller : Caller} {k : Nat} {call : Call} {todo : List (Nat × Call)}
    (hidle : caller.current = none) (htodo : caller.todo = (k, call) :: todo) :
    tearing ts caller = [.did k (.began call)] := by
  simp only [tearing, hidle, htodo]

theorem tearing_busy
    {ts : List Terminal} {caller : Caller} {k : Nat} {stage : Stage} {t : Terminal}
    (hcurrent : caller.current = some (k, stage)) (ht : ts[k]? = some t) :
    tearing ts caller = (t.callDeeds stage).map (.did k) := by
  simp only [tearing, hcurrent, ht]

/-- What the thread does on terminals by its next step. -/
def Thread.happenings (ts : List Terminal) (names : Bindings) : Thread → List Happening
  | .body (a :: _) =>
      match a.operand? with
      | some (_, .call name method argument) =>
          match terminalOf? names name, callOf? method argument with
          | some i, some call => [.did i (.began call)]
          | _, _ => []
      | _ => []
  | .calling i stage _ _ =>
      match ts[i]? with
      | some t => (t.callDeeds stage).map (.did i)
      | none => []
  | .ending caller _ => tearing ts caller
  | .body [] | .returned _ => []

/-- What a step of the thread changes for good: the terminals that are new, and the end of the
body. -/
def Running.gains (m m' : Running σ) : List Happening :=
  (m'.terminals.drop m.terminals.length).map (fun t => .opened t.name t.connection) ++
    match m.hasLeft, m'.thread with
    | false, .ending _ outcome => [.left outcome]
    | _, _ => []

/-- What happens by a step from one state to another. -/
def Running.happenings (db : Database σ) (m m' : Running σ) : Mover → List Happening
  | .thread => m.thread.happenings m.terminals m.names ++ m.gains m'
  | .worker i =>
      match m.terminals[i]? with
      | some t => (t.workerDeeds db m.world).map (.did i) ++ (closings db m.world t).map (.closed i)
      | none => []

/-! ## Turns -/

/-- The steps of a running case, with what happens by each. -/
inductive Turn (db : Database σ) (env : Environment) :
    Running σ → List Happening → Running σ → Prop
  | work {m : Running σ} {w : σ} {i : Nat} {t t' : Terminal} {deeds : List Deed}
      (ht : m.terminals[i]? = some t) (works : Works db m.world t deeds w t') :
      Turn db env m (deeds.map (.did i) ++ (closings db m.world t).map (.closed i))
        { m with world := w, terminals := m.terminals.set i t' }
  /-- The body comes to its end. -/
  | finish {m : Running σ} (hthread : m.thread = .body []) :
      Turn db env m [.left (.ok ())] (m.leave (.ok ()))
  | start {m : Running σ} {w : σ} {name : String} {connection : Nat} {rest : List Action}
      (hthread : m.thread = .body (.start name :: rest))
      (connect : db.connect m.world env.config env.autoCommit = (.done connection, w)) :
      Turn db env m [.opened name connection] {
        world := w
        terminals := m.terminals ++ [{ name, connection }]
        names := (name, .terminal m.terminals.length) :: m.names
        thread := .body rest }
  /-- A terminal does not start. -/
  | refuse {m : Running σ} {w : σ} {name : String} {e : Failure} {rest : List Action}
      (hthread : m.thread = .body (.start name :: rest))
      (refused : Terminal.start db env m.world name = (.error e, w)) :
      Turn db env m [.left (.error e)] ({ m with world := w }.leave (.error e))
  | evaluate {m : Running σ} {a : Action} {target : Option String} {value : Operand} {b : Binding}
      {rest : List Action} (hthread : m.thread = .body (a :: rest))
      (ha : a.operand? = some (target, value)) (hb : binding? m.names value = some b) :
      Turn db env m [] (m.resume target b rest)
  | pass {m : Running σ} {relation : Relation} {left right : String} {l r : Value}
      {rest : List Action} (hthread : m.thread = .body (.check relation left right :: rest))
      (hl : valueOf? m.names left = some l) (hr : valueOf? m.names right = some r)
      (holds : relation.check l r = .ok ()) : Turn db env m [] { m with thread := .body rest }
  | fail {m : Running σ} {relation : Relation} {left right : String} {l r : Value} {e : Failure}
      {rest : List Action} (hthread : m.thread = .body (.check relation left right :: rest))
      (hl : valueOf? m.names left = some l) (hr : valueOf? m.names right = some r)
      (fails : relation.check l r = .error e) :
      Turn db env m [.left (.error e)] (m.leave (.error e))
  /-- The body begins a call. -/
  | begin {m : Running σ} {a : Action} {target : Option String} {name : String} {method : Method}
      {argument : Option String} {i : Nat} {call : Call} {rest : List Action}
      (hthread : m.thread = .body (a :: rest))
      (ha : a.operand? = some (target, .call name method argument))
      (hi : terminalOf? m.names name = some i) (hcall : callOf? method argument = some call) :
      Turn db env m [.did i (.began call)] { m with thread := .calling i call.stage target rest }
  | goOn {m : Running σ} {i : Nat} {stage next : Stage} {target : Option String}
      {rest : List Action} {t t' : Terminal} (hthread : m.thread = .calling i stage target rest)
      (ht : m.terminals[i]? = some t) (hstep : t.callStep stage = some (t', .goOn next)) :
      Turn db env m ((t.callDeeds stage).map (.did i)) { m with
        terminals := m.terminals.set i t'
        thread := .calling i next target rest }
  | answer {m : Running σ} {i : Nat} {stage : Stage} {answer : Answer} {target : Option String}
      {rest : List Action} {t t' : Terminal} (hthread : m.thread = .calling i stage target rest)
      (ht : m.terminals[i]? = some t) (hstep : t.callStep stage = some (t', .done answer)) :
      Turn db env m ((t.callDeeds stage).map (.did i) ++ leaves answer)
        ({ m with terminals := m.terminals.set i t' }.receive target rest answer)
  | tear {m : Running σ} {caller caller' : Caller} {outcome : Outcome} {ts : List Terminal}
      (hthread : m.thread = .ending caller outcome)
      (hstep : caller.step m.terminals = some (ts, caller')) :
      Turn db env m (tearing m.terminals caller)
        { m with terminals := ts, thread := .ending caller' outcome }
  | return {m : Running σ} {caller : Caller} {outcome : Outcome}
      (hthread : m.thread = .ending caller outcome) (hdone : caller.isDone = true) :
      Turn db env m [] { m with thread := .returned outcome }

section Inversion

variable {db : Database σ} {env : Environment} {m m' : Running σ}

theorem Turn.congr
    {hs hs' : List Happening} (h : Turn db env m hs m') (heq : hs' = hs) :
    Turn db env m hs' m' := by
  rw [heq]
  exact h

/-- A body that goes on with the same number of terminals gains nothing. -/
theorem gains_eq_nil
    (hlength : m'.terminals.length ≤ m.terminals.length)
    (hstays : ∀ caller outcome, m'.thread ≠ .ending caller outcome) : m.gains m' = [] := by
  have hdrop : m'.terminals.drop m.terminals.length = [] := List.drop_eq_nil_of_le hlength
  rw [Running.gains, hdrop]
  split
  · rename_i hthread
    exact absurd hthread (hstays _ _)
  · rfl

/-- Whoever leaves the body does so once. -/
theorem gains_leave
    (hlength : m'.terminals.length ≤ m.terminals.length) (hstill : m.hasLeft = false)
    (outcome : Outcome) : m.gains (m'.leave outcome) = [.left outcome] := by
  have hdrop : m'.terminals.drop m.terminals.length = [] := List.drop_eq_nil_of_le hlength
  simp [Running.gains, Running.leave, hdrop, hstill]

theorem happenings_thread
    {done gained : List Happening} (hdone : m.thread.happenings m.terminals m.names = done)
    (hgained : m.gains m' = gained) : m.happenings db m' .thread = done ++ gained := by
  rw [Running.happenings, hdone, hgained]

theorem turn_of_evaluate
    {a : Action} {value : Operand} {target : Option String} {rest : List Action}
    (hthread : m.thread = .body (a :: rest)) (ha : a.operand? = some (target, value))
    (h : m.evaluate value target rest = some m') :
    Turn db env m (m.happenings db m' .thread) m' := by
  have hresume : ∀ b, binding? m.names value = some b →
      (∀ name method argument, value ≠ .call name method argument) →
      Turn db env m (m.happenings db (m.resume target b rest) .thread)
        (m.resume target b rest) := by
    intro b hb hcall
    have hnothing : m.thread.happenings m.terminals m.names = [] := by
      rw [hthread, Thread.happenings, ha]
      cases value with
      | call name method argument => exact absurd rfl (hcall name method argument)
      | _ => rfl
    refine (Turn.evaluate hthread ha hb).congr (happenings_thread hnothing ?_)
    exact gains_eq_nil (Nat.le_refl _) (by simp [Running.resume])
  cases value with
  | text content =>
      cases h
      exact hresume _ rfl (by simp)
  | int n =>
      cases h
      exact hresume _ rfl (by simp)
  | float x =>
      cases h
      exact hresume _ rfl (by simp)
  | «variable» name =>
      obtain ⟨b, hb, rfl⟩ := Option.map_eq_some_iff.mp h
      exact hresume b hb (by simp)
  | call name method argument =>
      simp only [Running.evaluate] at h
      split at h
      · rename_i i call hi hcall
        cases h
        have hgained : m.gains { m with thread := .calling i call.stage target rest } = [] :=
          gains_eq_nil (Nat.le_refl _) (by simp)
        have hbegun : m.thread.happenings m.terminals m.names = [.did i (.began call)] := by
          simp only [hthread, Thread.happenings, ha, hi, hcall]
        exact (Turn.begin hthread ha hi hcall).congr (happenings_thread hbegun hgained)
      · cases h

theorem turn_of_act
    {a : Action} {rest : List Action} (hthread : m.thread = .body (a :: rest))
    (h : m.act db env a rest = some m') : Turn db env m (m.happenings db m' .thread) m' := by
  have hstill : m.hasLeft = false := by rw [Running.hasLeft, hthread]
  cases a with
  | start name =>
      have hnothing : m.thread.happenings m.terminals m.names = [] := by rw [hthread]; rfl
      rcases hconnect : db.connect m.world env.config env.autoCommit with
        ⟨connection | d | message, w⟩
      · simp only [Running.act, Terminal.start, hconnect] at h
        cases h
        refine (Turn.start hthread hconnect).congr (happenings_thread hnothing ?_)
        simp [Running.gains]
      · simp only [Running.act, Terminal.start, hconnect] at h
        cases h
        refine (Turn.refuse hthread (by simp [Terminal.start, hconnect])).congr ?_
        exact happenings_thread hnothing (gains_leave (Nat.le_refl _) hstill _)
      · simp only [Running.act, Terminal.start, hconnect] at h
        cases h
        refine (Turn.refuse hthread (by simp [Terminal.start, hconnect])).congr ?_
        exact happenings_thread hnothing (gains_leave (Nat.le_refl _) hstill _)
  | bind target value => exact turn_of_evaluate hthread rfl h
  | run value => exact turn_of_evaluate hthread rfl h
  | check relation left right =>
      have hnothing : m.thread.happenings m.terminals m.names = [] := by rw [hthread]; rfl
      simp only [Running.act] at h
      split at h
      · rename_i hl hr
        split at h
        · rename_i holds
          cases h
          refine (Turn.pass hthread hl hr holds).congr ?_
          exact happenings_thread hnothing (gains_eq_nil (Nat.le_refl _) (by simp))
        · rename_i fails
          cases h
          refine (Turn.fail hthread hl hr fails).congr ?_
          exact happenings_thread hnothing (gains_leave (Nat.le_refl _) hstill _)
      · cases h

/-- What is gained when a call has returned. -/
theorem gains_receive
    (hlength : m'.terminals.length ≤ m.terminals.length) (hstill : m.hasLeft = false)
    (target : Option String) (rest : List Action) (answer : Answer) :
    m.gains (m'.receive target rest answer) = leaves answer := by
  cases answer with
  | nothing => exact gains_eq_nil hlength (by simp [Running.receive])
  | value v => exact gains_eq_nil hlength (by simp [Running.receive, Running.resume])
  | error e => exact gains_leave hlength hstill _

theorem turn_of_threadStep
    (h : m.threadStep db env = some m') : Turn db env m (m.happenings db m' .thread) m' := by
  unfold Running.threadStep at h
  split at h
  · rename_i hthread
    cases h
    have hstill : m.hasLeft = false := by rw [Running.hasLeft, hthread]
    refine (Turn.finish hthread).congr ?_
    exact happenings_thread (by rw [hthread, Thread.happenings])
      (gains_leave (Nat.le_refl _) hstill _)
  · rename_i hthread
    exact turn_of_act hthread h
  · rename_i i stage target rest hthread
    have hstill : m.hasLeft = false := by rw [Running.hasLeft, hthread]
    split at h
    · cases h
    · rename_i t ht
      have hdone : m.thread.happenings m.terminals m.names = (t.callDeeds stage).map (.did i) := by
        simp only [hthread, Thread.happenings, ht]
      split at h
      · cases h
      · rename_i hstep
        cases h
        refine (Turn.goOn hthread ht hstep).congr ?_
        rw [happenings_thread hdone (gains_eq_nil (by simp) (by simp)), List.append_nil]
      · rename_i hstep
        cases h
        refine (Turn.answer hthread ht hstep).congr ?_
        exact happenings_thread hdone (gains_receive (by simp) hstill _ _ _)
  · rename_i caller outcome hthread
    have hleft : m.hasLeft = true := by rw [Running.hasLeft, hthread]
    split at h
    · rename_i hdone
      cases h
      have hgained : m.gains { m with thread := .returned outcome } = [] :=
        gains_eq_nil (Nat.le_refl _) (by simp)
      have hnothing : m.thread.happenings m.terminals m.names = [] := by
        obtain ⟨hidle, htodo⟩ := Caller.isDone_iff.mp hdone
        simp only [hthread, Thread.happenings, tearing, hidle, htodo]
      exact (Turn.return hthread hdone).congr (happenings_thread hnothing hgained)
    · split at h
      · cases h
      · rename_i hstep
        cases h
        refine (Turn.tear hthread hstep).congr ?_
        rw [Running.happenings, hthread, Running.gains, hleft]
        rcases Caller.step_cases hstep with
          ⟨_, _, _, -, -, rfl, -⟩ | ⟨_, _, _, _, _, -, -, -, rfl, -⟩
        · simp [Thread.happenings]
        · simp [Thread.happenings]
  · cases h

end Inversion

theorem workerStep_eq_some
    {db : Database σ} {m m' : Running σ} {i : Nat} (h : m.workerStep db i = some m') :
    ∃ t w t', m.terminals[i]? = some t ∧ t.workerStep db m.world = some (w, t') ∧
      m' = { m with world := w, terminals := m.terminals.set i t' } := by
  unfold Running.workerStep at h
  split at h
  · cases h
  · rename_i t ht
    split at h
    · cases h
    · rename_i w t' hstep
      cases h
      exact ⟨t, w, t', ht, hstep, rfl⟩

/-- Every move is a turn. -/
theorem turn_of_move
    {db : Database σ} {env : Environment} {m m' : Running σ} {mover : Mover}
    (h : m.move db env mover = some m') : Turn db env m (m.happenings db m' mover) m' := by
  cases mover with
  | thread => exact turn_of_threadStep h
  | worker i =>
      obtain ⟨t, w, t', ht, hstep, rfl⟩ := workerStep_eq_some h
      refine (Turn.work ht (Terminal.works_of_workerStep hstep)).congr ?_
      simp only [Running.happenings, ht]

theorem turn_of_step
    {db : Database σ} {env : Environment} {m m' : Running σ} (h : Running.Step db env m m') :
    ∃ hs, Turn db env m hs m' := by
  obtain ⟨mover, hmove⟩ := h
  exact ⟨_, turn_of_move hmove⟩

/-! ## Turns as visits -/

/-- The call that is under way. -/
def Thread.current : Thread → Option (Nat × Stage)
  | .calling i stage _ _ => some (i, stage)
  | .ending caller _ => caller.current
  | .body _ | .returned _ => none

/-- The stage of the call that is under way on a terminal. -/
def Running.stagesOn (m : Running σ) (i : Nat) : Multiset Stage :=
  Terminal.stagesOf m.thread.current i

theorem current_receive
    (m : Running σ) (target : Option String) (rest : List Action) (answer : Answer) :
    (m.receive target rest answer).thread.current = none := by
  cases answer <;> rfl

theorem terminals_receive
    (m : Running σ) (target : Option String) (rest : List Action) (answer : Answer) :
    (m.receive target rest answer).terminals = m.terminals := by
  cases answer <;> rfl

/-- The deed of a happening on a terminal. -/
def Happening.deed? (i : Nat) : Happening → Option Deed
  | .did k deed => if k = i then some deed else none
  | _ => none

/-- What was done on a terminal. -/
def deedsOn (i : Nat) (h : List Happening) : List Deed :=
  h.filterMap (Happening.deed? i)

@[simp] theorem deedsOn_append
    (i : Nat) (h h' : List Happening) : deedsOn i (h ++ h') = deedsOn i h ++ deedsOn i h' :=
  List.filterMap_append

@[simp] theorem deedsOn_did
    (i k : Nat) (deeds : List Deed) :
    deedsOn i (deeds.map (.did k)) = if k = i then deeds else [] := by
  by_cases hk : k = i
  · simp [deedsOn, List.filterMap_map, Function.comp_def, Happening.deed?, hk]
  · simp [deedsOn, List.filterMap_map, Function.comp_def, Happening.deed?, hk]

@[simp] theorem deedsOn_closed
    (i k : Nat) (replies : List (Reply Unit)) : deedsOn i (replies.map (.closed k)) = [] := by
  simp [deedsOn, List.filterMap_map, Function.comp_def, Happening.deed?]

@[simp] theorem deedsOn_leaves
    (i : Nat) (answer : Answer) : deedsOn i (leaves answer) = [] := by
  cases answer <;> rfl

/-! ## Visits to one terminal -/

section Visits

variable {m m' : Running σ} {i : Nat} {t : Terminal}

/-- A thread that neither was in a call nor is in one passes by. -/
theorem visit_idle
    (t : Terminal) (i : Nat) (hbefore : m.thread.current = none)
    (hafter : m'.thread.current = none) : Visit t (m.stagesOn i) [] t (m'.stagesOn i) := by
  rw [Running.stagesOn, Running.stagesOn, hbefore, hafter]
  exact Visit.pass t 0

/-- A thread begins a call, on this terminal or on another. -/
theorem visit_begins
    {k : Nat} {call : Call} (t : Terminal) (i : Nat) (hbefore : m.thread.current = none)
    (hafter : m'.thread.current = some (k, call.stage)) :
    Visit t (m.stagesOn i) (deedsOn i [.did k (.began call)]) t (m'.stagesOn i) := by
  have hdeeds := deedsOn_did i k [.began call]
  have hvisit := Terminal.visit_begin t i k call 0
  rw [Multiset.add_zero] at hvisit
  rw [List.map_singleton] at hdeeds
  rw [hdeeds, Running.stagesOn, Running.stagesOn, hbefore, hafter]
  exact hvisit

/-- A thread makes a step in a call, on this terminal or on another. -/
theorem visit_goesOn
    {k : Nat} {stage : Stage} {u u' : Terminal} {p : Progress} (ht : m.terminals[i]? = some t)
    (hu : m.terminals[k]? = some u) (hstep : u.callStep stage = some (u', p))
    (hbefore : m.thread.current = some (k, stage)) (hafter : m'.thread.current = p.current k)
    (hterminals : m'.terminals = m.terminals.set k u') :
    ∃ t', m'.terminals[i]? = some t' ∧
      Visit t (m.stagesOn i) (if k = i then u.callDeeds stage else []) t' (m'.stagesOn i) := by
  obtain ⟨t', ht', hvisit⟩ := Terminal.visit_call hu hstep ht 0
  rw [Multiset.add_zero, Multiset.add_zero] at hvisit
  refine ⟨t', hterminals ▸ ht', ?_⟩
  rw [Running.stagesOn, Running.stagesOn, hbefore, hafter]
  exact hvisit

/-- A turn is a visit to each terminal that there is. -/
theorem Turn.visit
    {db : Database σ} {env : Environment} {hs : List Happening} (h : Turn db env m hs m')
    (ht : m.terminals[i]? = some t) :
    ∃ t', m'.terminals[i]? = some t' ∧
      Visit t (m.stagesOn i) (deedsOn i hs) t' (m'.stagesOn i) := by
  cases h with
  | work hu works =>
      obtain ⟨t', ht', hvisit⟩ := Terminal.visit_work hu works ht (m.stagesOn i)
      refine ⟨t', ht', ?_⟩
      rw [deedsOn_append, deedsOn_did, deedsOn_closed, List.append_nil]
      exact hvisit
  | finish hthread => exact ⟨t, ht, visit_idle t i (by rw [hthread]; rfl) rfl⟩
  | start hthread =>
      refine ⟨t, ?_, visit_idle t i (by rw [hthread]; rfl) rfl⟩
      rw [List.getElem?_append_left (List.getElem?_eq_some_iff.mp ht).1]
      exact ht
  | refuse hthread => exact ⟨t, ht, visit_idle t i (by rw [hthread]; rfl) rfl⟩
  | evaluate hthread => exact ⟨t, ht, visit_idle t i (by rw [hthread]; rfl) rfl⟩
  | pass hthread => exact ⟨t, ht, visit_idle t i (by rw [hthread]; rfl) rfl⟩
  | fail hthread => exact ⟨t, ht, visit_idle t i (by rw [hthread]; rfl) rfl⟩
  | begin hthread => exact ⟨t, ht, visit_begins t i (by rw [hthread]; rfl) rfl⟩
  | goOn hthread hu hstep =>
      rw [deedsOn_did]
      exact visit_goesOn ht hu hstep (by rw [hthread]; rfl) rfl rfl
  | answer hthread hu hstep =>
      rw [deedsOn_append, deedsOn_did, deedsOn_leaves, List.append_nil]
      exact visit_goesOn ht hu hstep (by rw [hthread]; rfl) (current_receive _ _ _ _)
        (terminals_receive _ _ _ _)
  | tear hthread hstep =>
      rcases Caller.step_cases hstep with
        ⟨k, call, todo, hidle, htodo, rfl, hcurrent, -⟩ |
        ⟨k, stage, u, u', p, hcurrent, hu, hcall, rfl, hcurrent', -⟩
      · rw [tearing_idle hidle htodo]
        exact ⟨t, ht, visit_begins t i (by rw [hthread]; exact hidle) hcurrent⟩
      · rw [tearing_busy hcurrent hu, deedsOn_did]
        exact visit_goesOn ht hu hcall (by rw [hthread]; exact hcurrent) hcurrent' rfl
  | @«return» caller outcome hthread hdone =>
      have hidle : caller.current = none := (Caller.isDone_iff.mp hdone).1
      exact ⟨t, ht, visit_idle t i (by rw [hthread]; exact hidle) rfl⟩

end Visits

/-- A terminal that a turn adds is fresh, and the body goes on. -/
theorem Turn.fresh
    {db : Database σ} {env : Environment} {m m' : Running σ} {hs : List Happening}
    (h : Turn db env m hs m') {i : Nat} {t : Terminal} (hnew : m.terminals.length ≤ i)
    (ht : m'.terminals[i]? = some t) :
    ∃ name connection rest, t = { name, connection } ∧ m'.thread = .body rest := by
  have hlength : i < m'.terminals.length := (List.getElem?_eq_some_iff.mp ht).1
  cases h with
  | start =>
      simp only [List.length_append, List.length_singleton] at hlength
      obtain rfl : i = m.terminals.length := by omega
      simp only [List.getElem?_concat_length, Option.some.injEq] at ht
      exact ⟨_, _, _, ht.symm, rfl⟩
  | tear hthread hstep =>
      rcases Caller.step_cases hstep with ⟨_, _, _, -, -, rfl, -⟩ | ⟨_, _, _, _, _, -, -, -, rfl, -⟩
      · exact absurd hlength (Nat.not_lt.mpr hnew)
      · simp only [List.length_set] at hlength
        omega
  | answer =>
      simp only [terminals_receive, List.length_set] at hlength
      omega
  | _ =>
      simp only [List.length_set, Running.leave, Running.resume] at hlength
      omega

/-! ## Schedules end -/

/-- What the workers can still do at most while nobody sends them a task. -/
def workersWork : List Terminal → Nat
  | [] => 0
  | t :: ts => t.work + workersWork ts

theorem workersWork_set_lt
    {ts : List Terminal} {i : Nat} {t t' : Terminal} (ht : ts[i]? = some t)
    (h : t'.work < t.work) : workersWork (ts.set i t') < workersWork ts := by
  induction ts generalizing i with
  | nil => cases ht
  | cons first ts ih =>
      cases i with
      | zero =>
          cases ht
          exact Nat.add_lt_add_right h _
      | succ i => exact Nat.add_lt_add_left (ih ht) _

/-- There is no schedule without end. -/
theorem acc_step
    (db : Database σ) (env : Environment) (m : Running σ) :
    Acc (fun m' m => Running.Step db env m m') m := by
  have hwf : WellFounded (fun m' m : Running σ => Prod.Lex (· < ·) (· < ·)
      (m'.work, workersWork m'.terminals) (m.work, workersWork m.terminals)) :=
    InvImage.wf (fun m : Running σ => (m.work, workersWork m.terminals))
      (WellFounded.prod_lex Nat.lt_wfRel.wf Nat.lt_wfRel.wf)
  refine Subrelation.accessible ?_ (hwf.apply m)
  rintro m₁ m₂ ⟨mover, hmove⟩
  cases mover with
  | thread => exact Prod.Lex.left _ _ (Running.work_lt_of_threadStep hmove)
  | worker i =>
      obtain ⟨t, w, t', ht, hstep, rfl⟩ := workerStep_eq_some hmove
      have hlt := workersWork_set_lt ht (Terminal.work_lt_of_workerStep hstep)
      simp only [Running.work, List.length_set]
      exact Prod.Lex.right _ hlt

end Case
end CaseSuite
