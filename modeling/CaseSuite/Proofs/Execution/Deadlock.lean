import CaseSuite.Proofs.Execution.Bodies
import CaseSuite.Proofs.Execution.Succession
import CaseSuite.Run.Scope
import Mathlib

/-!
# No case is deadlocked

A thread without a step has returned, waits for a worker that can move, or uses a name that stands
for nothing fitting.  The last cannot happen to a plan whose names were checked: while its body
runs, the names that are bound are those of the scope that the check has computed, sort by sort, and
the rest of the body passes the check in that scope.
-/

namespace CaseSuite

open Plan (NameSort Scope actionScope actionsScope operandSort)
open Terminal (Answer Call Progress Stage)

/-! ## What a plan calls -/

/-- A stage that gives back a value or an error. -/
def Terminal.Stage.Reads (stage : Stage) : Prop :=
  stage = .readingCode ∨ ∃ name, stage = .readingRows name

/-- A call of the action takes its argument, and gives back a value if a name waits for one. -/
def Action.Callable (a : Action) : Prop :=
  ∀ target name method argument, a.operand? = some (target, .call name method argument) →
    ∃ call, Case.callOf? method argument = some call ∧ (target.isSome → call.stage.Reads)

namespace Plan

theorem ne_call_of_number?
    {literal : String} {value : Operand} (h : number? literal = some value) (name : String)
    (method : Method) (argument : Option String) : value ≠ .call name method argument := by
  rintro rfl
  unfold number? at h
  split at h
  · split at h
    · split at h
      · cases h
      · cases h
    · cases h
  · obtain ⟨n, -, hcall⟩ := Option.map_eq_some_iff.mp h
    cases hcall

/-- An expression is bound to a value, if need be to one that is read. -/
theorem Denotes.callable
    {e : Expr} {value : Operand} (h : Denotes e value) (target : String) :
    (Action.bind target value).Callable := by
  intro bound name method argument hoperand
  obtain ⟨rfl, hvalue⟩ : some target = bound ∧ value = .call name method argument := by
    simpa [Action.operand?] using hoperand
  cases h with
  | text => cases hvalue
  | «variable» => cases hvalue
  | number hnumber => exact absurd hvalue (ne_call_of_number? hnumber name method argument)
  | request =>
      rw [answer] at hvalue
      split at hvalue
      · cases hvalue
        exact ⟨_, rfl, fun _ => Or.inr ⟨_, rfl⟩⟩
      · cases hvalue
        exact ⟨_, rfl, fun _ => Or.inl rfl⟩

/-- A call whose answer nobody waits for only has to take its argument. -/
theorem callable_run
    {name : String} {method : Method} {argument : Option String} {call : Call}
    (h : Case.callOf? method argument = some call) :
    (Action.run (.call name method argument)).Callable := by
  rintro _ _ _ _ ⟨⟩
  exact ⟨call, h, fun hsome => nomatch hsome⟩

theorem callable_sending (r : Request) : ∀ a ∈ sending r, a.Callable := by
  intro a ha
  simp only [sending, List.mem_append, List.mem_singleton] at ha
  rcases ha with (rfl | hstore) | hwait
  · exact callable_run rfl
  · split at hstore
    · obtain rfl := List.mem_singleton.mp hstore
      exact callable_run rfl
    · cases hstore
  · split at hwait
    · obtain rfl := List.mem_singleton.mp hwait
      exact callable_run rfl
    · cases hwait

theorem callable_preparation (e : Expr) : ∀ a ∈ preparation e, a.Callable := by
  cases e with
  | request r => exact callable_sending r
  | _ => exact fun a ha => nomatch ha

theorem Planned.callable
    {k : Nat} {s : Statement} {as : List Action} (h : Planned k s as) : ∀ a ∈ as, a.Callable := by
  have hstart (name : String) : (Action.start name).Callable := fun _ _ _ _ h => nomatch h
  have hcheck (relation : Relation) (left right : String) :
      (Action.check relation left right).Callable := fun _ _ _ _ h => nomatch h
  have hcopy (target name : String) : (Action.bind target (.variable name)).Callable :=
    fun _ _ _ _ h => nomatch h
  intro a ha
  cases h with
  | request => exact callable_sending _ a ha
  | declare =>
      obtain ⟨name, -, rfl⟩ := List.mem_map.mp ha
      exact hstart name
  | assign denotes =>
      simp only [List.mem_append, List.mem_singleton] at ha
      rcases ha with (hprepared | rfl) | rfl
      · exact callable_preparation _ a hprepared
      · exact denotes.callable _
      · exact hcopy _ _
  | check first second =>
      simp only [List.mem_append, List.mem_singleton] at ha
      rcases ha with ((hprepared | rfl) | hprepared | rfl) | rfl
      · exact callable_preparation _ a hprepared
      · exact first.callable _
      · exact callable_preparation _ a hprepared
      · exact second.callable _
      · exact hcheck _ _ _

theorem PlannedAll.callable
    {ss : List Statement} {as : List Action} (h : PlannedAll ss as) : ∀ a ∈ as, a.Callable := by
  induction h with
  | nil => exact fun a ha => nomatch ha
  | cons first _ ih =>
      intro a ha
      rcases List.mem_append.mp ha with hfirst | hrest
      · exact first.callable a hfirst
      · exact ih a hrest

/-- Every call of a planned case takes its argument and gives what is waited for. -/
theorem callable_of_suite
    {file : CaseFile} {suite : Suite} {p : Plan} (hsuite : file.suite = .ok suite)
    (hp : p ∈ suite.plans) : ∀ a ∈ p.actions, a.Callable := by
  obtain ⟨i, hi, rfl⟩ := List.mem_iff_getElem.mp hp
  have hplans := suite_ok hsuite
  obtain ⟨body, hbody, hactions⟩ := hplans.get (hplans.length_eq ▸ hi) hi
  rw [List.get_eq_getElem] at hactions
  intro a ha
  rw [hactions] at ha
  rcases List.mem_cons.mp ha with rfl | hin
  · exact fun _ _ _ _ h => nomatch h
  · exact hbody.callable a hin

end Plan

namespace Case

variable {σ : Type}

/-! ## Scopes of running cases -/

def Binding.sort : Binding → NameSort
  | .terminal _ => .terminal
  | .value _ => .value

/-- The names that are bound, with their sorts. -/
def sorts (names : Bindings) : Scope :=
  names.map fun (name, b) => (name, b.sort)

theorem lookup_sorts (names : Bindings) (name : String) :
    (sorts names).lookup name = (names.lookup name).map Binding.sort := by
  induction names with
  | nil => rfl
  | cons entry names ih =>
      obtain ⟨other, b⟩ := entry
      rw [sorts, List.map_cons, List.lookup_cons, List.lookup_cons]
      split
      · rfl
      · exact ih

/-- The scope once a name is bound, if there is one. -/
def within (target : Option String) (sort : NameSort) (scope : Scope) : Scope :=
  match target with
  | some name => (name, sort) :: scope
  | none => scope

/-- What is left of the body passes the check in the scope of the names that are bound. -/
def Thread.Scoped (names : Bindings) : Thread → Prop
  | .body rest => (∀ a ∈ rest, a.Callable) ∧ (actionsScope (sorts names) rest).isOk
  | .calling _ stage target rest => (∀ a ∈ rest, a.Callable) ∧ (target.isSome → stage.Reads) ∧
      (actionsScope (within target .value (sorts names)) rest).isOk
  | .ending _ _ | .returned _ => True

theorem sorts_resume
    (m : Running σ) (target : Option String) (b : Binding) (rest : List Action) :
    sorts (m.resume target b rest).names = within target b.sort (sorts m.names) := by
  cases target <;> rfl

/-- The check of an action with an operand is the check of the operand. -/
theorem actionScope_of_operand?
    {a : Action} {target : Option String} {value : Operand} (ha : a.operand? = some (target, value))
    (scope : Scope) :
    actionScope scope a = (operandSort scope value).map fun sort => within target sort scope := by
  cases a with
  | start name => cases ha
  | check relation left right => cases ha
  | bind name value =>
      cases ha
      rw [actionScope]
      rcases operandSort scope value with e | sort <;> rfl
  | run value =>
      cases ha
      rw [actionScope]
      rcases operandSort scope value with e | sort <;> rfl

/-- What a name stands for is of the sort that the check has found. -/
theorem operandSort_of_binding?
    {names : Bindings} {value : Operand} {b : Binding} (h : binding? names value = some b) :
    operandSort (sorts names) value = .ok b.sort := by
  cases value with
  | «variable» name =>
      have hlookup : names.lookup name = some b := h
      simp [operandSort, lookup_sorts, hlookup]
  | call => cases h
  | _ =>
      cases h
      rfl

/-- The first action of actions that pass the check passes it. -/
theorem exists_actionScope
    {scope : Scope} {a : Action} {rest : List Action}
    (h : (actionsScope scope (a :: rest)).isOk) :
    ∃ scope', actionScope scope a = .ok scope' ∧ (actionsScope scope' rest).isOk := by
  rw [actionsScope] at h
  rcases ha : actionScope scope a with e | scope'
  · rw [ha] at h
    cases h
  · rw [ha] at h
    exact ⟨scope', rfl, h⟩

theorem operandSort_call
    {scope : Scope} {name : String} {method : Method} {argument : Option String} {sort : NameSort}
    (h : operandSort scope (.call name method argument) = .ok sort) :
    scope.lookup name = some .terminal ∧ sort = .value := by
  rw [operandSort] at h
  split at h
  · rename_i hlookup
    cases h
    exact ⟨hlookup, rfl⟩
  · cases h

theorem actionScope_check
    {scope scope' : Scope} {relation : Relation} {left right : String}
    (h : actionScope scope (.check relation left right) = .ok scope') :
    scope.lookup left = some .value ∧ scope.lookup right = some .value ∧ scope' = scope := by
  rw [actionScope] at h
  split at h
  · cases h
  · rename_i hleft
    split at h
    · cases h
    · rename_i hright
      cases h
      exact ⟨not_not.mp hleft, not_not.mp hright, rfl⟩

/-- A stage that reads gives its answer at once. -/
theorem reads_callStep
    {stage : Stage} (h : stage.Reads) {t t' : Terminal} {p : Progress}
    (hstep : t.callStep stage = some (t', p)) : ∃ answer, p = .done answer ∧ answer ≠ .nothing := by
  rcases h with rfl | ⟨name, rfl⟩
  · cases hstep
    exact ⟨_, rfl, by simp⟩
  · cases hstep
    refine ⟨_, rfl, ?_⟩
    cases t.rows name <;> simp [Answer.ofExcept]

/-- A turn keeps the rest of the body in its scope. -/
theorem Turn.inScope
    {db : Database σ} {env : Environment} {m m' : Running σ} {hs : List Happening}
    (h : Turn db env m hs m') (hscoped : m.thread.Scoped m.names) :
    m'.thread.Scoped m'.names := by
  cases h with
  | work => exact hscoped
  | finish => trivial
  | refuse => trivial
  | fail => trivial
  | tear => trivial
  | «return» => trivial
  | start hthread =>
      rw [hthread] at hscoped
      obtain ⟨hcallable, hrest⟩ := hscoped
      exact ⟨fun a ha => hcallable a (List.mem_cons_of_mem _ ha), hrest⟩
  | evaluate hthread ha hb =>
      rw [hthread] at hscoped
      obtain ⟨hcallable, hrest⟩ := hscoped
      obtain ⟨scope, hscope, hrest⟩ := exists_actionScope hrest
      rw [actionScope_of_operand? ha, operandSort_of_binding? hb] at hscope
      cases hscope
      refine ⟨fun a ha => hcallable a (List.mem_cons_of_mem _ ha), ?_⟩
      rw [sorts_resume]
      exact hrest
  | pass hthread =>
      rw [hthread] at hscoped
      obtain ⟨hcallable, hrest⟩ := hscoped
      obtain ⟨scope, hscope, hrest⟩ := exists_actionScope hrest
      obtain ⟨-, -, rfl⟩ := actionScope_check hscope
      exact ⟨fun a ha => hcallable a (List.mem_cons_of_mem _ ha), hrest⟩
  | begin hthread ha hi hcall =>
      rw [hthread] at hscoped
      obtain ⟨hcallable, hrest⟩ := hscoped
      obtain ⟨call, hcall', hreads⟩ := hcallable _ List.mem_cons_self _ _ _ _ ha
      rw [hcall] at hcall'
      cases hcall'
      refine ⟨fun a ha => hcallable a (List.mem_cons_of_mem _ ha), hreads, ?_⟩
      obtain ⟨scope, hscope, hrest⟩ := exists_actionScope hrest
      rw [actionScope_of_operand? ha] at hscope
      rcases hsort : operandSort (sorts m.names) _ with e | sort
      · rw [hsort] at hscope
        cases hscope
      · rw [hsort] at hscope
        cases hscope
        obtain ⟨-, rfl⟩ := operandSort_call hsort
        exact hrest
  | goOn hthread ht hstep =>
      rw [hthread] at hscoped
      obtain ⟨hcallable, hreads, hrest⟩ := hscoped
      refine ⟨hcallable, ?_, hrest⟩
      intro hsome
      obtain ⟨answer, hdone, -⟩ := reads_callStep (hreads hsome) hstep
      cases hdone
  | @answer i stage answer target rest t t' hthread ht hstep =>
      rw [hthread] at hscoped
      obtain ⟨hcallable, hreads, hrest⟩ := hscoped
      cases answer with
      | error e => trivial
      | value v =>
          refine ⟨hcallable, ?_⟩
          rw [Running.receive, sorts_resume]
          exact hrest
      | nothing =>
          rcases target with _ | name
          · exact ⟨hcallable, hrest⟩
          · obtain ⟨answer, hdone, hsome⟩ := reads_callStep (hreads rfl) hstep
            cases hdone
            exact absurd rfl hsome

theorem exists_valueOf?
    {names : Bindings} {name : String} (h : (sorts names).lookup name = some .value) :
    ∃ v, valueOf? names name = some v := by
  rw [lookup_sorts] at h
  obtain ⟨b, hb, hsort⟩ := Option.map_eq_some_iff.mp h
  cases b with
  | terminal i => cases hsort
  | value v => exact ⟨v, by simp [valueOf?, hb]⟩

theorem exists_terminalOf?
    {names : Bindings} {name : String} (h : (sorts names).lookup name = some .terminal) :
    ∃ i, terminalOf? names name = some i := by
  rw [lookup_sorts] at h
  obtain ⟨b, hb, hsort⟩ := Option.map_eq_some_iff.mp h
  cases b with
  | terminal i => exact ⟨i, by simp [terminalOf?, hb]⟩
  | value v => cases hsort

theorem evaluate_ne_none
    {m : Running σ} {a : Action} {target : Option String} {value : Operand} {scope : Scope}
    (ha : a.operand? = some (target, value)) (hcallable : a.Callable)
    (hscope : actionScope (sorts m.names) a = .ok scope) (rest : List Action) :
    m.evaluate value target rest ≠ none := by
  rw [actionScope_of_operand? ha] at hscope
  rcases hsort : operandSort (sorts m.names) value with e | sort
  · rw [hsort] at hscope
    cases hscope
  · cases value with
    | text content => exact Option.some_ne_none _
    | int n => exact Option.some_ne_none _
    | float x => exact Option.some_ne_none _
    | «variable» name =>
        rw [operandSort, lookup_sorts] at hsort
        rcases hlookup : m.names.lookup name with _ | b
        · simp [hlookup] at hsort
        · simp [Running.evaluate, hlookup]
    | call name method argument =>
        obtain ⟨i, hi⟩ := exists_terminalOf? (operandSort_call hsort).1
        obtain ⟨call, hcall, -⟩ := hcallable _ _ _ _ ha
        simp [Running.evaluate, hi, hcall]

/-- A body in its scope can take its next action. -/
theorem act_ne_none
    {db : Database σ} {env : Environment} {m : Running σ} {a : Action} {rest : List Action}
    (hthread : m.thread = .body (a :: rest)) (h : m.thread.Scoped m.names) :
    m.act db env a rest ≠ none := by
  rw [hthread] at h
  obtain ⟨hcallable, hrest⟩ := h
  obtain ⟨scope, hscope, -⟩ := exists_actionScope hrest
  have hfirst := hcallable a List.mem_cons_self
  cases a with
  | start name =>
      simp only [Running.act]
      split <;> simp
  | bind target value => exact evaluate_ne_none rfl hfirst hscope rest
  | run value => exact evaluate_ne_none rfl hfirst hscope rest
  | check relation left right =>
      obtain ⟨hleft, hright, -⟩ := actionScope_check hscope
      obtain ⟨l, hl⟩ := exists_valueOf? hleft
      obtain ⟨r, hr⟩ := exists_valueOf? hright
      simp only [Running.act, hl, hr]
      split <;> simp

end Case

/-! ## Waiting -/

/-- A call is blocked at a stage: the queue is full, tasks are pending or the worker is still
there. -/
inductive Terminal.Blocks (t : Terminal) : Stage → Prop
  | room {task : Terminal.Task} (here : t.isGone = false)
      (full : Terminal.queueCapacity ≤ t.queue.length) : Blocks t (.sending task)
  | tasks (pending : t.pending ≠ 0) : Blocks t .waiting
  | exit (here : t.isGone = false) : Blocks t .joining

theorem Terminal.callStep_eq_none_iff
    {t : Terminal} {stage : Stage} : t.callStep stage = none ↔ t.Blocks stage := by
  constructor
  · intro h
    rcases blocked_call h with ⟨task, rfl, hhere, hfull⟩ | ⟨rfl, hpending⟩ | ⟨rfl, hhere⟩
    · exact Blocks.room hhere hfull
    · exact Blocks.tasks hpending
    · exact Blocks.exit hhere
  · intro h
    cases h with
    | room here full => simp [callStep, here, Nat.not_lt.mpr full]
    | tasks pending => simp [callStep, pending]
    | exit here => simp [callStep, here]

namespace Case

variable {σ : Type}

/-- The thread is blocked in a call on a terminal. -/
def Running.WaitsOn (m : Running σ) (i : Nat) : Prop :=
  ∃ t stage, m.terminals[i]? = some t ∧ m.thread.current = some (i, stage) ∧ t.Blocks stage

/-- What holds of a case whose names were checked. -/
structure Running.Checked (m : Running σ) : Prop where
  sound : m.Sound
  inScope : m.thread.Scoped m.names

theorem checked_new
    {p : Plan} (hcallable : ∀ a ∈ p.actions, a.Callable) (hnames : p.misuse? = none) (w : σ) :
    (Running.new w p).Checked := by
  refine ⟨Running.sound_new w p, hcallable, ?_⟩
  rw [Plan.misuse?] at hnames
  split at hnames
  · rename_i hscope
    exact congrArg Except.isOk hscope
  · cases hnames

namespace Running.Checked

variable {db : Database σ} {env : Environment} {m m' : Running σ}

theorem run
    {movers : List Mover} (h : m.Checked) (hrun : m.runSchedule db env movers = some m') :
    m'.Checked := by
  induction movers generalizing m with
  | nil =>
      cases hrun
      exact h
  | cons mover movers ih =>
      obtain ⟨next, hmove, hrest⟩ := Option.bind_eq_some_iff.mp hrun
      have hturn := turn_of_move hmove
      exact ih ⟨h.sound.turn hturn, hturn.inScope h.inScope⟩ hrest

/-- A thread that cannot move has returned or waits for a worker that can. -/
theorem blocked
    (h : m.Checked) (hblocked : m.threadStep db env = none) :
    (∃ outcome, m.thread = .returned outcome) ∨ ∃ i, m.WaitsOn i ∧ m.workerStep db i ≠ none := by
  rcases h.sound.blocked hblocked with
    hreturned | ⟨a, rest, hthread, hnone⟩ | ⟨i, stage, hcurrent, hworker⟩
  · exact Or.inl hreturned
  · exact absurd hnone (act_ne_none hthread h.inScope)
  · have ht := List.getElem?_eq_getElem (h.sound.thread.current hcurrent).1
    have hcall := (threadStep_eq_none_iff hcurrent ht).mp hblocked
    exact Or.inr ⟨i, ⟨_, stage, ht, hcurrent, Terminal.callStep_eq_none_iff.mp hcall⟩, hworker⟩

/-- Whoever the thread waits for can move. -/
theorem worker_moves
    (h : m.Checked) {i : Nat} (hwaits : m.WaitsOn i) (db : Database σ) (env : Environment) :
    m.workerStep db i ≠ none := by
  obtain ⟨t, stage, ht, hcurrent, hblocks⟩ := hwaits
  have hblocked : m.threadStep db env = none :=
    (threadStep_eq_none_iff hcurrent ht).mpr (Terminal.callStep_eq_none_iff.mpr hblocks)
  rcases h.blocked hblocked with ⟨outcome, hreturned⟩ | ⟨k, ⟨_, _, -, hcurrent', -⟩, hworker⟩
  · rw [hreturned] at hcurrent
    cases hcurrent
  · rw [hcurrent] at hcurrent'
    cases hcurrent'
    exact hworker

end Running.Checked

/-- No case of a suite is ever deadlocked, whatever database it runs on and however it is scheduled.
Until it has returned, its thread can move or waits for a worker that can; and a thread that is
blocked at a full queue, in a wait or in a join waits for a worker that can move. -/
theorem no_deadlock
    {file : CaseFile} {suite : Suite} {p : Plan} (hsuite : file.suite = .ok suite)
    (hp : p ∈ suite.plans) (hnames : p.misuse? = none) (db : Database σ) (env : Environment)
    (w : σ) {movers : List Mover} {m : Running σ}
    (hrun : (Running.new w p).runSchedule db env movers = some m) :
    ((∃ outcome, m.thread = .returned outcome) ∨ (∃ m', m.move db env .thread = some m') ∨
      ∃ i, m.WaitsOn i ∧ ∃ m', m.move db env (.worker i) = some m') ∧
    ∀ i, m.WaitsOn i → ∃ m', m.move db env (.worker i) = some m' := by
  have hcallable := Plan.callable_of_suite hsuite hp
  have hchecked := (checked_new hcallable hnames w).run hrun
  refine ⟨?_, fun i hwaits => Option.ne_none_iff_exists'.mp (hchecked.worker_moves hwaits db env)⟩
  rcases hstep : m.threadStep db env with _ | m'
  · rcases hchecked.blocked hstep with hreturned | ⟨i, hwaits, hworker⟩
    · exact Or.inl hreturned
    · exact Or.inr (Or.inr ⟨i, hwaits, Option.ne_none_iff_exists'.mp hworker⟩)
  · exact Or.inr (Or.inl ⟨m', hstep⟩)

/-- The thread waits for the query that will cost the second terminal its worker. -/
def abandonedWait : Running Memory where
  world := { brittle with
    sessions := [⟨[], none⟩, ⟨[], none⟩]
    log := [(0, .connect "" true), (1, .connect "" true)] }
  terminals := [{ name := "case_terminal", connection := 0, pending := 1, queue := [.execute "q"] },
    { name := "a", connection := 1, pending := 1, queue := [.execute "p"] }]
  names := [("a", .terminal 1), ("case_terminal", .terminal 0)]
  thread := .calling 1 .waiting none
    [.bind "tmp_1" (.call "a" .code none), .bind "tmp_2" (.int 1), .check .equal "tmp_1" "tmp_2"]

theorem no_deadlock_abandoned :
    (Running.new brittle abandonedPlan).runSchedule Memory.database ⟨"", true⟩
        (List.replicate 9 .thread) = some abandonedWait ∧ abandonedWait.WaitsOn 1 ∧
      ∃ m, abandonedWait.move Memory.database ⟨"", true⟩ (.worker 1) = some m := by
  have hnames : abandonedPlan.misuse? = none := by cbv
  have hrun : (Running.new brittle abandonedPlan).runSchedule Memory.database ⟨"", true⟩
      (List.replicate 9 .thread) = some abandonedWait := by
    cbv
  have hwaits : abandonedWait.WaitsOn 1 := ⟨_, .waiting, rfl, rfl, .tasks (by decide)⟩
  have hmoves := no_deadlock suite_abandoned List.mem_cons_self hnames Memory.database ⟨"", true⟩
    brittle hrun
  exact ⟨hrun, hwaits, hmoves.2 1 hwaits⟩

end Case
end CaseSuite
