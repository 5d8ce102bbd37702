import CaseSuite.Proofs.Execution.Bodies
import CaseSuite.Proofs.Execution.Foresight

/-!
# Synchronous cases

In a synchronous case at most one terminal has something under way, and the body waits for it
before it reads.  So the desk that runs each task at the moment it is sent stands beside the
terminals all the time, whoever is scheduled: a body that goes on finds on its terminals what the
desk has, and when it ends the desk has come to the same end.  The teardown adds nothing but
closes.
-/

namespace CaseSuite

open Plan (Pace Tidy)
open Terminal (Advances Answer Call Caller Deed Ledger Orderly Phase Progress Stage Task Works)

variable {σ : Type}

namespace Case

/-! ## The pace of a body and its terminal -/

/-- The terminal that the pace is about has this number. -/
def On (names : Bindings) (i : Nat) : Pace → Prop
  | .free => True
  | .executed terminal | .stored terminal => terminalOf? names terminal = some i

/-- How a body that has a pace leaves the terminal. -/
def Rests (t : Terminal) : Pace → Prop
  | .free => t.Settled
  | .executed _ => t.Unfetching
  | .stored _ => True

/-- A call at a stage leads to a pace, and finds the terminal as it needs it. -/
inductive Paced (t : Terminal) : Stage → Pace → Prop
  | execute {stage : Stage} {query terminal : String} (task : stage.task? = some (.execute query))
      (unfetching : t.Unfetching) : Paced t stage (.executed terminal)
  | mark {name terminal : String} (unfetching : t.Unfetching) :
      Paced t (.marking name) (.stored terminal)
  | fetch {stage : Stage} {name terminal : String} (task : stage.task? = some (.fetch name)) :
      Paced t stage (.stored terminal)
  | wait : Paced t .waiting .free
  | readRows {name : String} (settled : t.Settled) : Paced t (.readingRows name) .free
  | readCode (settled : t.Settled) : Paced t .readingCode .free

namespace Paced

variable {t t' : Terminal} {stage next : Stage} {pace : Pace} {deeds : List Deed}

theorem suits
    (h : Paced t stage pace) : Suits t stage := by
  cases h with
  | mark unfetching => exact unfetching
  | readRows settled => exact settled
  | readCode settled => exact settled
  | wait => trivial
  | execute task => cases stage <;> cases task <;> trivial
  | fetch task => cases stage <;> cases task <;> trivial

theorem works
    {db : Database σ} {w w' : σ} (h : Paced t stage pace) (hworks : Works db w t deeds w' t')
    (hhandles : t.handles ≠ 0) : Paced t' stage pace := by
  cases h with
  | execute task unfetching => exact Paced.execute task (unfetching.works hworks)
  | mark unfetching => exact Paced.mark (unfetching.works hworks)
  | fetch task => exact Paced.fetch task
  | wait => exact Paced.wait
  | readRows settled => exact Paced.readRows (settled.works hworks hhandles).2
  | readCode settled => exact Paced.readCode (settled.works hworks hhandles).2

theorem goOn
    (h : Paced t stage pace) (hadvances : Advances t stage deeds t' (.goOn next)) :
    Paced t' next pace := by
  cases h with
  | execute task unfetching =>
      refine Paced.execute (hadvances.task? task) ?_
      cases hadvances with
      | mark => cases task
      | claim => cases task
      | _ => exact unfetching
  | mark =>
      cases hadvances
      exact Paced.fetch rfl
  | fetch task => exact Paced.fetch (hadvances.task? task)
  | wait => cases hadvances
  | readRows => cases hadvances
  | readCode => cases hadvances

theorem rests
    {l : Ledger} {answer : Answer} (h : Paced t stage pace) (horderly : Orderly t {stage} l)
    (hdeserted : l.deserted = false) (hstep : t.callStep stage = some (t', .done answer)) :
    Rests t' pace := by
  cases h with
  | execute task unfetching =>
      have hadvances := Terminal.advances_of_callStep hstep
      generalize t.callDeeds stage = deeds at hadvances
      cases hadvances with
      | send other =>
          obtain rfl := Option.some.inj task
          rcases unfetching with hsealed | ⟨hqueue, hphase⟩
          · exact Or.inl hsealed
          · refine Or.inr ⟨?_, hphase⟩
            intro name hin
            rcases List.mem_append.mp hin with hin | hin
            · exact hqueue name hin
            · cases List.mem_singleton.mp hin
      | reject other =>
          obtain rfl := Option.some.inj task
          have hclosed := horderly.rejecting _ (Multiset.mem_singleton_self _)
          exact Or.inl (horderly.closed_iff.mp hclosed)
      | read idle => simp [Stage.isIdle_of_task? task] at idle
      | duplicate => cases task
      | give => cases task
  | mark => cases hstep
  | fetch => trivial
  | wait =>
      simp only [Terminal.callStep] at hstep
      split at hstep
      · rename_i hpending
        cases hstep
        exact settled_of_pending_zero horderly hdeserted hpending
      · cases hstep
  | readRows settled =>
      cases hstep
      exact settled
  | readCode settled =>
      cases hstep
      exact settled

theorem eq_free
    {answer : Answer} (h : Paced t stage pace)
    (hstep : t.callStep stage = some (t', .done answer)) (hanswer : answer ≠ .nothing) :
    pace = .free := by
  have htask : ∀ task, stage.task? = some task → answer = .nothing := by
    intro task hstage
    have hadvances := Terminal.advances_of_callStep hstep
    generalize t.callDeeds stage = deeds at hadvances
    cases hadvances with
    | read idle => simp [Stage.isIdle_of_task? hstage] at idle
    | _ => rfl
  cases h with
  | execute task => exact absurd (htask _ task) hanswer
  | fetch task => exact absurd (htask _ task) hanswer
  | mark => cases hstep
  | wait => rfl
  | readRows => rfl
  | readCode => rfl

end Paced

theorem Rests.works
    {db : Database σ} {w w' : σ} {t t' : Terminal} {pace : Pace} {deeds : List Deed}
    (h : Rests t pace) (hworks : Works db w t deeds w' t') (hhandles : t.handles ≠ 0) :
    Rests t' pace := by
  cases pace with
  | free => exact (Terminal.Settled.works h hworks hhandles).2
  | executed terminal => exact Terminal.Unfetching.works h hworks
  | stored terminal => trivial

/-! ## Vacant terminals -/

/-- The worker has nothing left to ask of the database but to close. -/
def Vacant (t : Terminal) : Prop :=
  t.phase.isExit = true ∨
    (t.phase = .arriving ∨ t.phase = .waiting) ∧ ∀ task ∈ t.queue, task = .shutdown

theorem vacant_of_settled
    {t : Terminal} (h : t.Settled) : Vacant t := by
  rcases h with ⟨hqueue, hphase⟩ | hsealed
  · exact Or.inr ⟨hphase, by simp [hqueue]⟩
  · exact Or.inl (Phase.isExit_of_isSealed hsealed)

theorem Vacant.works
    {db : Database σ} {w w' : σ} {t t' : Terminal} {deeds : List Deed} (h : Vacant t)
    (hworks : Works db w t deeds w' t') :
    Vacant t' ∧ (w' = w ∨ w' = (db.close w t.connection).2) := by
  rcases h with hexit | ⟨hphase, hqueue⟩
  · cases hworks with
    | close _ answer =>
        rename_i reply _
        refine ⟨Or.inl ?_, Or.inr (by rw [answer])⟩
        cases reply <;> rfl
    | shut => exact ⟨Or.inl rfl, Or.inl rfl⟩
    | crash => exact ⟨Or.inl rfl, Or.inl rfl⟩
    | leave => exact ⟨Or.inl rfl, Or.inl rfl⟩
    | refuse => exact ⟨Or.inl rfl, Or.inl rfl⟩
    | drop => exact ⟨Or.inl rfl, Or.inl rfl⟩
    | _ => simp_all [Phase.isExit]
  · cases hworks with
    | arrive => exact ⟨Or.inr ⟨Or.inr rfl, hqueue⟩, Or.inl rfl⟩
    | take _ queue =>
        rename_i task rest _
        obtain rfl : task = .shutdown := hqueue task (by simp [queue])
        exact ⟨Or.inl rfl, Or.inl rfl⟩
    | desert => exact ⟨Or.inl rfl, Or.inl rfl⟩
    | _ => simp_all

theorem Vacant.advances
    {t t' : Terminal} {stage : Stage} {deeds : List Deed} {p : Progress} (h : Vacant t)
    (hadvances : Advances t stage deeds t' p)
    (hstage : ∀ task, stage.task? = some task → task = .shutdown) : Vacant t' := by
  cases hadvances with
  | send task =>
      rcases h with hexit | ⟨hphase, hqueue⟩
      · exact Or.inl hexit
      · refine Or.inr ⟨hphase, ?_⟩
        intro other hin
        rcases List.mem_append.mp hin with hin | hin
        · exact hqueue other hin
        · rw [List.mem_singleton.mp hin]
          exact hstage task rfl
  | reject task =>
      rw [hstage task rfl]
      exact h
  | _ => exact h

/-! ## Agreement with the desk -/

/-- The terminal that may have something under way at a pace. -/
def BusyAt (names : Bindings) (busy : Option Nat) : Pace → Prop
  | .free => busy = none
  | .executed terminal | .stored terminal => ∃ i, terminalOf? names terminal = some i ∧ busy = some i

/-- How a thread has left its body. -/
def Thread.outcome? : Thread → Option Outcome
  | .ending _ outcome | .returned outcome => some outcome
  | .body _ | .calling _ _ _ _ => none

/-- A running case and the run `R` on the desk come to the same, as far as `f` can see. -/
inductive Agrees {α : Type} (db : Database σ) (env : Environment) (f : σ → α)
    (R : Except Halt Unit × Record (Desk σ)) : Running σ → Prop
  | body {m : Running σ} {rest : List Action} {pace : Pace} {busy : Option Nat} {s : Desk σ}
      {ops : List Operation} (hthread : m.thread = .body rest) (tidy : Tidy pace rest)
      (serving : ∀ t ∈ m.terminals, t.Serving)
      (busyAt : BusyAt m.names busy pace) (foreseen : Foreseen db busy m.world m.terminals s)
      (rests : ∀ i t, busy = some i → m.terminals[i]? = some t → Rests t pace)
      (due : (Run.actions (sequential db env) rest).runFrom ⟨s, m.names, ops⟩ = R) :
      Agrees db env f R m
  | calling {m : Running σ} {i : Nat} {stage : Stage} {target : Option String}
      {rest : List Action} {pace : Pace} {s : Desk σ} {ops : List Operation}
      (hthread : m.thread = .calling i stage target rest) (tidy : Tidy pace rest)
      (serving : ∀ t ∈ m.terminals, t.Serving)
      (on : On m.names i pace) (foreseen : Foreseen db (some i) m.world m.terminals s)
      (paced : ∀ t, m.terminals[i]? = some t → Paced t stage pace)
      (due : Run.proceed (sequential db env) target rest m.names ops (s.rest db i stage) = R) :
      Agrees db env f R m
  | left {m : Running σ} {outcome : Outcome} {s : Desk σ} {ops : List Operation}
      (hthread : m.thread.outcome? = some outcome)
      (vacant : ∀ t ∈ m.terminals, Vacant t)
      (observed : f s.world = f m.world)
      (due : (outcome.mapError .failed, ⟨s, m.names, ops⟩) = R) : Agrees db env f R m

theorem forall_mem_set
    {P : Terminal → Prop} {ts : List Terminal} {t' : Terminal} (h : ∀ t ∈ ts, P t) (ht' : P t')
    (i : Nat) : ∀ t ∈ ts.set i t', P t := by
  intro t hin
  rcases List.mem_or_eq_of_mem_set hin with hold | rfl
  · exact h t hold
  · exact ht'

namespace Agrees

variable {α : Type} {db : Database σ} {env : Environment} {f : σ → α}
  {R : Except Halt Unit × Record (Desk σ)} {m : Running σ}

/-- A worker makes a step. -/
theorem work
    {w' : σ} {i : Nat} {t t' : Terminal} {deeds : List Deed} (h : Agrees db env f R m)
    (hsound : m.Sound) (hclose : ∀ w connection, f (db.close w connection).2 = f w)
    (ht : m.terminals[i]? = some t) (hworks : Works db m.world t deeds w' t') :
    Agrees db env f R { m with world := w', terminals := m.terminals.set i t' } := by
  have hlength : i < m.terminals.length := (List.getElem?_eq_some_iff.mp ht).1
  have hmem : t ∈ m.terminals := List.mem_iff_getElem?.mpr ⟨i, ht⟩
  obtain ⟨l, hattended⟩ := hsound.terminals i t ht
  -- the worker has forgotten the last result before it comes to a query
  have hcleared : ∀ query, t.phase = .executing query → t.last.code = .success := by
    intro query hphase
    rw [(hattended.orderly.standing_of hphase).2.2]
    rfl
  have hserving' : (∀ u ∈ m.terminals, u.Serving) → ∀ u ∈ m.terminals.set i t', u.Serving :=
    fun hserving => forall_mem_set hserving ((hserving t hmem).works hworks) i
  cases h with
  | body hthread tidy serving busyAt foreseen rests due =>
      refine Agrees.body hthread tidy (hserving' serving) busyAt
        (foreseen.work ht hworks (serving t hmem) hcleared) ?_ due
      intro j u hbusy hu
      by_cases hj : i = j
      · subst hj
        rw [List.getElem?_set_self hlength] at hu
        cases hu
        exact (rests i t hbusy ht).works hworks hattended.handles
      · rw [List.getElem?_set_ne hj] at hu
        exact rests j u hbusy hu
  | calling hthread tidy serving on foreseen paced due =>
      rename_i k stage target rest pace s ops
      refine Agrees.calling hthread tidy (hserving' serving) on
        (foreseen.work ht hworks (serving t hmem) hcleared) ?_ due
      intro u hu
      by_cases hk : i = k
      · subst hk
        rw [List.getElem?_set_self hlength] at hu
        cases hu
        exact (paced t ht).works hworks hattended.handles
      · rw [List.getElem?_set_ne hk] at hu
        exact paced u hu
  | left hthread vacant observed due =>
      obtain ⟨hvacant, hworld⟩ := (vacant t hmem).works hworks
      refine Agrees.left hthread (forall_mem_set vacant hvacant i) ?_ due
      rcases hworld with rfl | rfl
      · exact observed
      · rw [hclose]
        exact observed

/-- The body ends while no terminal is busy. -/
theorem leave
    {s : Desk σ} {ops : List Operation} {outcome : Outcome}
    (foreseen : Foreseen db none m.world m.terminals s)
    (due : (outcome.mapError .failed, ⟨s, m.names, ops⟩) = R) :
    Agrees db env f R (m.leave outcome) := by
  refine Agrees.left rfl ?_ (congrArg f (foreseen.calm rfl)) due
  intro t hin
  obtain ⟨i, hi⟩ := List.mem_iff_getElem?.mp hin
  exact vacant_of_settled (foreseen.settled i t hi (by simp))

/-- A call is back, and the body goes on at its pace. -/
theorem resume
    {i : Nat} {t : Terminal} {rest : List Action} {pace : Pace} {s : Desk σ}
    {ops : List Operation} (hthread : m.thread = .body rest) (tidy : Tidy pace rest)
    (serving : ∀ u ∈ m.terminals, u.Serving) (ht : m.terminals[i]? = some t)
    (on : On m.names i pace) (foreseen : Foreseen db (some i) m.world m.terminals s)
    (rests : Rests t pace)
    (due : (Run.actions (sequential db env) rest).runFrom ⟨s, m.names, ops⟩ = R) :
    Agrees db env f R m := by
  have hrests : ∀ j u, some i = some j → m.terminals[j]? = some u → Rests u pace := by
    intro j u hij hu
    cases hij
    rw [ht] at hu
    cases hu
    exact rests
  cases pace with
  | free =>
      refine Agrees.body hthread tidy serving rfl (foreseen.release ht rests) ?_ due
      intro j u hnone
      cases hnone
  | executed terminal =>
      exact Agrees.body hthread tidy serving ⟨i, on, rfl⟩ foreseen hrests due
  | stored terminal =>
      exact Agrees.body hthread tidy serving ⟨i, on, rfl⟩ foreseen hrests due

/-- A call makes a step. -/
theorem call
    {i : Nat} {stage : Stage} {target : Option String} {rest : List Action} {t t' : Terminal}
    {p : Progress} (h : Agrees db env f R m) (hsound : m.Sound)
    (hthread : m.thread = .calling i stage target rest) (ht : m.terminals[i]? = some t)
    (hstep : t.callStep stage = some (t', p)) :
    Agrees db env f R (match p with
      | .goOn next => { m with
          terminals := m.terminals.set i t'
          thread := .calling i next target rest }
      | .done answer =>
          { m with terminals := m.terminals.set i t' }.receive target rest answer) := by
  have hset : (m.terminals.set i t')[i]? = some t' :=
    List.getElem?_set_self (List.getElem?_eq_some_iff.mp ht).1
  have hmem : t ∈ m.terminals := List.mem_iff_getElem?.mpr ⟨i, ht⟩
  have hadvances := Terminal.advances_of_callStep hstep
  obtain ⟨l, hattended⟩ := hsound.terminals i t ht
  have horderly := hattended.orderly
  rw [Running.stagesOn, hthread, Thread.current, Terminal.stagesOf, if_pos rfl] at horderly
  have hordinary : stage.Ordinary := by
    have hproper := hsound.thread
    rw [hthread] at hproper
    exact hproper.2
  cases h with
  | body hbody =>
      rw [hthread] at hbody
      cases hbody
  | left hleft =>
      rw [hthread] at hleft
      cases hleft
  | calling hcalling tidy serving on foreseen paced due =>
      rename_i pace s ops
      rw [hthread] at hcalling
      cases hcalling
      have hpaced := paced t ht
      obtain ⟨s', foreseen', hrest⟩ :=
        foreseen.callStep ht horderly (serving t hmem) hordinary hpaced.suits hstep
      have serving' : ∀ u ∈ m.terminals.set i t', u.Serving :=
        forall_mem_set serving ((serving t hmem).advances hadvances hordinary) i
      rw [hrest] at due
      cases p with
      | goOn next =>
          refine Agrees.calling rfl tidy serving' on foreseen' ?_ due
          intro u hu
          rw [hset] at hu
          cases hu
          exact hpaced.goOn hadvances
      | done answer =>
          have hrests := hpaced.rests horderly hattended.deserted hstep
          cases answer with
          | nothing => exact Agrees.resume rfl tidy serving' hset on foreseen' hrests due
          -- only a reading call gives anything back, and then no query is under way
          | value v =>
              obtain rfl := hpaced.eq_free hstep (by simp)
              exact Agrees.resume rfl tidy serving' hset trivial foreseen' hrests due
          | error e =>
              obtain rfl := hpaced.eq_free hstep (by simp)
              exact Agrees.leave (foreseen'.release hset hrests) due

theorem of_left
    {outcome : Outcome} (h : Agrees db env f R m) (hthread : m.thread.outcome? = some outcome) :
    ∃ s ops, (∀ t ∈ m.terminals, Vacant t) ∧ f s.world = f m.world ∧
      (outcome.mapError .failed, ⟨s, m.names, ops⟩) = R := by
  cases h with
  | body hbody =>
      rw [hbody] at hthread
      cases hthread
  | calling hcalling =>
      rw [hcalling] at hthread
      cases hthread
  | left hleft vacant observed due =>
      rw [hleft] at hthread
      cases hthread
      exact ⟨_, _, vacant, observed, due⟩

/-- A stage of the teardown. -/
theorem tear
    {caller caller' : Caller} {outcome : Outcome} {ts : List Terminal} (h : Agrees db env f R m)
    (hsound : m.Sound) (hthread : m.thread = .ending caller outcome)
    (hstep : caller.step m.terminals = some (ts, caller')) :
    Agrees db env f R { m with terminals := ts, thread := .ending caller' outcome } := by
  have hproper := hsound.thread
  rw [hthread] at hproper
  obtain ⟨s, ops, vacant, observed, due⟩ := h.of_left (by rw [hthread]; rfl)
  refine Agrees.left rfl ?_ observed due
  rcases Caller.step_cases hstep with
    ⟨_, _, _, -, -, rfl, -⟩ | ⟨k, stage, t, t', p, hcurrent, ht, hcall, rfl, -⟩
  · exact vacant
  · have hvacant := vacant t (List.mem_iff_getElem?.mpr ⟨k, ht⟩)
    refine forall_mem_set vacant (hvacant.advances (Terminal.advances_of_callStep hcall) ?_) k
    -- a stage of the teardown is about no task but a shutdown
    intro task htask
    rcases (Teardown.current hproper k stage hcurrent).2 with hshut | ⟨rfl | rfl, -⟩
    · rw [hshut] at htask
      exact (Option.some.inj htask).symm
    · cases htask
    · cases htask

theorem of_body
    {rest : List Action} (h : Agrees db env f R m) (hthread : m.thread = .body rest) :
    ∃ pace busy s ops, Tidy pace rest ∧ (∀ t ∈ m.terminals, t.Serving) ∧
      BusyAt m.names busy pace ∧ Foreseen db busy m.world m.terminals s ∧
      (∀ i t, busy = some i → m.terminals[i]? = some t → Rests t pace) ∧
      (Run.actions (sequential db env) rest).runFrom ⟨s, m.names, ops⟩ = R := by
  cases h with
  | body hbody tidy serving busyAt foreseen rests due =>
      rw [hthread] at hbody
      cases hbody
      exact ⟨_, _, _, _, tidy, serving, busyAt, foreseen, rests, due⟩
  | calling hcalling =>
      rw [hthread] at hcalling
      cases hcalling
  | left hleft =>
      rw [hthread] at hleft
      cases hleft

/-- A body that is not in the middle of a request goes on without a call. -/
theorem goOn
    {names : Bindings} {w : σ} {ts : List Terminal} {rest : List Action} {s : Desk σ}
    {ops : List Operation} (tidy : Tidy .free rest) (serving : ∀ t ∈ ts, t.Serving)
    (foreseen : Foreseen db none w ts s)
    (due : (Run.actions (sequential db env) rest).runFrom ⟨s, names, ops⟩ = R) :
    Agrees db env f R { world := w, terminals := ts, names, thread := .body rest } := by
  refine Agrees.body rfl tidy serving rfl foreseen ?_ due
  intro i t hnone
  cases hnone

/-- The body begins a call. -/
theorem begin
    {a : Action} {target : Option String} {name : String} {method : Method}
    {argument : Option String} {i : Nat} {c : Call} {rest : List Action}
    (h : Agrees db env f R m) (hthread : m.thread = .body (a :: rest))
    (ha : a.operand? = some (target, .call name method argument))
    (hi : terminalOf? m.names name = some i) (hcall : callOf? method argument = some c) :
    Agrees db env f R { m with thread := .calling i c.stage target rest } := by
  obtain ⟨pace, busy, s, ops, tidy, serving, busyAt, foreseen, rests, due⟩ := h.of_body hthread
  rw [Run.runFrom_begin ha hi hcall, perform_eq_rest db env s i hcall] at due
  cases tidy with
  | start => cases ha
  | check => cases ha
  | bind reading tidy =>
      cases ha
      obtain rfl : busy = none := busyAt
      have hsettled : ∀ t, m.terminals[i]? = some t → t.Settled :=
        fun t ht => foreseen.settled i t ht (by simp)
      unfold callOf? at hcall
      -- of the five calls only `rows` and `code` are readings
      split at hcall
      case h_4 =>
        cases hcall
        exact Agrees.calling rfl tidy serving trivial (foreseen.occupy i)
          (fun t ht => Paced.readRows (hsettled t ht)) due
      case h_5 =>
        cases hcall
        exact Agrees.calling rfl tidy serving trivial (foreseen.occupy i)
          (fun t ht => Paced.readCode (hsettled t ht)) due
      case h_6 => cases hcall
      all_goals cases reading
  | execute tidy =>
      cases ha
      cases hcall
      obtain rfl : busy = none := busyAt
      refine Agrees.calling rfl tidy serving hi (foreseen.occupy i) ?_ due
      intro t ht
      exact Paced.execute rfl (foreseen.settled i t ht (by simp)).unfetching
  | store tidy =>
      cases ha
      cases hcall
      obtain ⟨j, hj, rfl⟩ := busyAt
      rw [hi] at hj
      cases hj
      exact Agrees.calling rfl tidy serving hi foreseen
        (fun t ht => Paced.mark (rests i t rfl ht)) due
  | wait under tidy =>
      cases ha
      cases hcall
      have hbusy : busy = some i := by
        rcases under with rfl | rfl
        · obtain ⟨j, hj, rfl⟩ := busyAt
          rw [← hj, hi]
        · obtain ⟨j, hj, rfl⟩ := busyAt
          rw [← hj, hi]
      subst hbusy
      exact Agrees.calling rfl tidy serving trivial foreseen (fun _ _ => Paced.wait) due

/-- A terminal starts. -/
theorem start
    {w : σ} {name : String} {connection : Nat} {rest : List Action} (h : Agrees db env f R m)
    (hthread : m.thread = .body (.start name :: rest))
    (connect : db.connect m.world env.config env.autoCommit = (.done connection, w)) :
    Agrees db env f R {
      world := w
      terminals := m.terminals ++ [{ name, connection }]
      names := (name, .terminal m.terminals.length) :: m.names
      thread := .body rest } := by
  obtain ⟨pace, busy, s, ops, tidy, serving, busyAt, foreseen, -, due⟩ := h.of_body hthread
  cases tidy with
  | start tidy =>
      obtain rfl : busy = none := busyAt
      rw [← foreseen.calm rfl] at connect
      have hlength : s.lines.length = m.terminals.length := by
        rw [foreseen.lines, List.length_map]
      rw [Run.runFrom_start_ok (sequential_start_ok name connect), hlength] at due
      refine Agrees.goOn tidy ?_ (foreseen.start w name connection) due
      intro t hin
      rcases List.mem_append.mp hin with hold | hnew
      · exact serving t hold
      · obtain rfl := List.mem_singleton.mp hnew
        constructor <;> simp [Phase.isExit]

/-- A terminal does not start, and the body ends. -/
theorem refuse
    {w : σ} {name : String} {e : Failure} {rest : List Action} (h : Agrees db env f R m)
    (hthread : m.thread = .body (.start name :: rest))
    (refused : Terminal.start db env m.world name = (.error e, w)) :
    Agrees db env f R ({ m with world := w }.leave (.error e)) := by
  obtain ⟨pace, busy, s, ops, tidy, -, busyAt, foreseen, -, due⟩ := h.of_body hthread
  cases tidy with
  | start tidy =>
      obtain rfl : busy = none := busyAt
      rw [← foreseen.calm rfl] at refused
      rw [Run.runFrom_start_error (sequential_start_error refused)] at due
      exact Agrees.leave (m := { m with world := w }) (foreseen.elsewhere w) due

/-- Every turn keeps a synchronous case in agreement with the desk. -/
theorem turn
    {m' : Running σ} (h : Agrees db env f R m) (hsound : m.Sound)
    (hclose : ∀ w connection, f (db.close w connection).2 = f w) {hs : List Happening}
    (hturn : Turn db env m hs m') : Agrees db env f R m' := by
  cases hturn with
  | work ht works => exact h.work hsound hclose ht works
  | begin hthread ha hi hcall => exact h.begin hthread ha hi hcall
  | goOn hthread ht hstep => exact h.call hsound hthread ht hstep
  | answer hthread ht hstep => exact h.call hsound hthread ht hstep
  | tear hthread hstep => exact h.tear hsound hthread hstep
  | «return» hthread =>
      obtain ⟨s, ops, vacant, observed, due⟩ := h.of_left (by rw [hthread]; rfl)
      exact Agrees.left rfl vacant observed due
  | finish hthread =>
      obtain ⟨pace, busy, s, ops, tidy, -, busyAt, foreseen, -, due⟩ := h.of_body hthread
      cases tidy
      obtain rfl : busy = none := busyAt
      exact Agrees.leave foreseen due
  | start hthread connect => exact h.start hthread connect
  | refuse hthread refused => exact h.refuse hthread refused
  | evaluate hthread ha hb =>
      obtain ⟨pace, busy, s, ops, tidy, serving, busyAt, foreseen, -, due⟩ := h.of_body hthread
      rw [Run.runFrom_value ha hb] at due
      cases tidy with
      | bind reading tidy =>
          obtain rfl : busy = none := busyAt
          cases ha
          exact Agrees.goOn tidy serving foreseen due
      | start => cases ha
      | check => cases ha
      | execute =>
          cases ha
          cases hb
      | store =>
          cases ha
          cases hb
      | wait =>
          cases ha
          cases hb
  | pass hthread hl hr holds =>
      obtain ⟨pace, busy, s, ops, tidy, serving, busyAt, foreseen, -, due⟩ := h.of_body hthread
      rw [Run.runFrom_check hl hr, holds] at due
      cases tidy with
      | check tidy =>
          obtain rfl : busy = none := busyAt
          exact Agrees.goOn tidy serving foreseen due
  | fail hthread hl hr fails =>
      obtain ⟨pace, busy, s, ops, tidy, serving, busyAt, foreseen, -, due⟩ := h.of_body hthread
      rw [Run.runFrom_check hl hr, fails] at due
      cases tidy with
      | check tidy =>
          obtain rfl : busy = none := busyAt
          exact Agrees.leave foreseen due

end Agrees

end Case
end CaseSuite
