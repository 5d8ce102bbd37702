import CaseSuite.Proofs.Execution.Turns

/-!
# Running cases make progress

A thread can be blocked in three places: at a full queue, in a wait and in a join.  Each time it
waits for a worker, and that worker can move: whoever has tasks in its queue takes them, a count
that is not zero belongs to a task that the worker still has, and nobody is joined before being
asked to leave.  So a case in which nothing moves has returned, unless its body uses a name that
stands for nothing fitting.
-/

namespace CaseSuite

open Terminal (Advances Answer Call Caller Deed Ledger Orderly Progress Stage Task Visit Works)

variable {σ : Type}

namespace Terminal

/-! ## One terminal -/

/-- The task that a stage is about. -/
def Stage.task? : Stage → Option Task
  | .counting task | .sending task | .uncounting task | .rejecting task => some task
  | _ => none

theorem Stage.isIdle_of_task?
    {stage : Stage} {task : Task} (h : stage.task? = some task) : stage.isIdle = false := by
  cases stage <;> cases h <;> rfl

/-- A stage of a call that a body makes: it asks nobody to leave and keeps its handle. -/
def Stage.Ordinary (stage : Stage) : Prop :=
  stage.task? ≠ some .shutdown ∧ stage ∉ [.claiming, .joining, .duplicating, .giving]

theorem Advances.task?
    {t t' : Terminal} {stage next : Stage} {deeds : List Deed} {task : Task}
    (h : Advances t stage deeds t' (.goOn next)) (htask : stage.task? = some task) :
    next.task? = some task := by
  cases h with
  | mark => cases htask
  | claim => cases htask
  | _ => exact htask

theorem Stage.Ordinary.advances
    {t t' : Terminal} {stage next : Stage} {deeds : List Deed} (h : stage.Ordinary)
    (hadvances : Advances t stage deeds t' (.goOn next)) : next.Ordinary := by
  obtain ⟨htask, hhouse⟩ := h
  cases hadvances with
  | mark => exact ⟨by simp [task?], by simp⟩
  | claim => simp at hhouse
  | _ => exact ⟨htask, by simp⟩

/-- A worker that cannot move is gone, or waits for a task while there is none. -/
theorem blocked_worker
    {db : Database σ} {w : σ} {t : Terminal} (h : t.workerStep db w = none) :
    t.phase = .gone ∨ t.phase = .waiting ∧ t.queue = [] := by
  unfold workerStep at h
  split at h
  case h_2 hphase =>
    split at h
    · cases h
    · rename_i hqueue
      exact Or.inr ⟨hphase, hqueue⟩
  case h_17 hphase => exact Or.inl hphase
  all_goals cases h

/-- The worker has been asked to leave, or refuses tasks. -/
def Dismissed (t : Terminal) (l : Ledger) : Prop :=
  .shutdown ∈ l.sent ∨ t.closed = true

section Visits

variable {t t' : Terminal} {stages stages' : Multiset Stage} {deeds : List Deed} {l : Ledger}

theorem Visit.closed
    (h : Visit t stages deeds t' stages') (hclosed : t.closed = true) : t'.closed = true := by
  cases h with
  | pass => exact hclosed
  | begin => exact hclosed
  | work _ works =>
      cases works with
      | refuse => rfl
      | _ => exact hclosed
  | goOn _ advances =>
      cases advances with
      | reject task =>
          cases task with
          | _ => exact hclosed
      | _ => exact hclosed

theorem Dismissed.visit
    (h : Dismissed t l) (hvisit : Visit t stages deeds t' stages') :
    Dismissed t' (l.recordAll deeds) := by
  rcases h with hsent | hclosed
  · exact Or.inl ((l.sent_prefix_recordAll deeds).subset hsent)
  · exact Or.inr (hvisit.closed hclosed)

/-- A call that asks the worker to leave goes on, or the worker is dismissed. -/
theorem Orderly.dismiss
    {stage : Stage} {p : Progress} (h : Orderly t (stage ::ₘ stages) l)
    (hadvances : Advances t stage deeds t' p) (htask : stage.task? = some .shutdown) :
    (∃ next ∈ p.stages, next.task? = some .shutdown) ∨ Dismissed t' (l.recordAll deeds) := by
  rcases p with next | answer
  · exact Or.inl ⟨next, Multiset.mem_singleton_self next, hadvances.task? htask⟩
  · right
    cases hadvances with
    | send task =>
        obtain rfl : task = .shutdown := Option.some.inj htask
        exact Or.inl (List.mem_append_right _ List.mem_cons_self)
    | reject task =>
        obtain rfl : task = .shutdown := Option.some.inj htask
        exact Or.inr (h.rejecting .shutdown (Multiset.mem_cons_self _ _))
    | read idle => simp [Stage.isIdle_of_task? htask] at idle
    | _ => cases htask

theorem Visit.dismiss
    {stage : Stage} (h : Visit t stages deeds t' stages') (horderly : Orderly t stages l)
    (hstage : stage ∈ stages) (htask : stage.task? = some .shutdown) :
    (∃ next ∈ stages', next.task? = some .shutdown) ∨ Dismissed t' (l.recordAll deeds) := by
  cases h with
  | pass => exact Or.inl ⟨stage, hstage, htask⟩
  | work => exact Or.inl ⟨stage, hstage, htask⟩
  | begin => exact Or.inl ⟨stage, Multiset.mem_cons_of_mem hstage, htask⟩
  | goOn others advances =>
      rcases Multiset.mem_cons.mp hstage with rfl | hother
      · rcases horderly.dismiss advances htask with ⟨next, hnext, hshutdown⟩ | hdismissed
        · exact Or.inl ⟨next, Multiset.mem_add.mpr (Or.inl hnext), hshutdown⟩
        · exact Or.inr hdismissed
      · exact Or.inl ⟨stage, Multiset.mem_add.mpr (Or.inr hother), htask⟩

/-- A terminal whose handles nobody gives up is not deserted. -/
theorem Visit.attended
    (h : Visit t stages deeds t' stages') (hgiving : .giving ∉ stages)
    (hhandles : t.handles ≠ 0) :
    t'.handles ≠ 0 ∧ (l.recordAll deeds).deserted = l.deserted := by
  cases h with
  | pass => exact ⟨hhandles, rfl⟩
  | begin => exact ⟨hhandles, rfl⟩
  | work _ works =>
      cases works with
      | desert _ _ handles => exact absurd handles hhandles
      | _ => exact ⟨hhandles, rfl⟩
  | goOn _ advances =>
      cases advances with
      | duplicate => exact ⟨Nat.succ_ne_zero _, rfl⟩
      | give => exact absurd (Multiset.mem_cons_self _ _) hgiving
      | reject task =>
          cases task with
          | _ => exact ⟨hhandles, rfl⟩
      | _ => exact ⟨hhandles, rfl⟩

end Visits

/-- A worker that waits for a task and has none has completed all it was sent, and no task is
pending unless a caller is about to send one. -/
theorem Orderly.waiting
    {t : Terminal} {stages : Multiset Stage} {l : Ledger} (h : Orderly t stages l)
    (hphase : t.phase = .waiting) (hqueue : t.queue = []) :
    l.sent = l.tasks ∧ t.closed = false ∧ t.pending = senders stages := by
  obtain ⟨htaken, -, -⟩ := h.standing_of hphase
  have hopen : t.closed = false := by
    rw [← Bool.not_eq_true, h.closed_iff, hphase]
    simp [Phase.isSealed]
  have hhere : t.isGone = false := by simp [isGone, hphase]
  refine ⟨?_, hopen, ?_⟩
  · rw [h.fifo hhere, hqueue, List.append_nil, htaken]
  · have hcounted := h.counted hopen
    rw [hqueue, htaken, l.length_tasks] at hcounted
    simp only [List.length_nil] at hcounted
    omega

/-- Whoever is asked to leave can move until it is gone. -/
theorem Orderly.isGone_of_dismissed
    {db : Database σ} {w : σ} {t : Terminal} {stages : Multiset Stage} {l : Ledger}
    (h : Orderly t stages l) (hdismissed : Dismissed t l) (hblocked : t.workerStep db w = none) :
    t.isGone = true := by
  rcases blocked_worker hblocked with hgone | ⟨hphase, hqueue⟩
  · simp [isGone, hgone]
  · obtain ⟨hsent, hopen, -⟩ := h.waiting hphase hqueue
    rcases hdismissed with hin | hclosed
    · -- no completed round is a shutdown
      rw [hsent] at hin
      obtain ⟨round, -, htask⟩ := List.mem_map.mp hin
      cases round <;> cases htask
    · simp [hopen] at hclosed

theorem blocked_call
    {t : Terminal} {stage : Stage} (h : t.callStep stage = none) :
    (∃ task, stage = .sending task ∧ t.isGone = false ∧ queueCapacity ≤ t.queue.length) ∨
      stage = .waiting ∧ t.pending ≠ 0 ∨ stage = .joining ∧ t.isGone = false := by
  cases stage with
  | sending task =>
      simp only [callStep] at h
      split at h
      · cases h
      · rename_i hhere
        split at h
        · cases h
        · rename_i hfull
          exact Or.inl ⟨task, rfl, by simpa using hhere, Nat.not_lt.mp hfull⟩
  | waiting =>
      simp only [callStep] at h
      split at h
      · cases h
      · rename_i hpending
        exact Or.inr (Or.inl ⟨rfl, hpending⟩)
  | joining =>
      simp only [callStep] at h
      split at h
      · cases h
      · rename_i hhere
        exact Or.inr (Or.inr ⟨rfl, by simpa using hhere⟩)
  | _ =>
      simp only [callStep] at h
      try split at h
      all_goals cases h

/-- When the only caller is blocked, the worker can move. -/
theorem Orderly.worker_moves
    {t : Terminal} {stage : Stage} {l : Ledger} (h : Orderly t {stage} l)
    (hblocked : t.callStep stage = none) (hjoining : stage = .joining → Dismissed t l)
    (db : Database σ) (w : σ) : t.workerStep db w ≠ none := by
  intro hworker
  rcases blocked_call hblocked with ⟨task, rfl, hhere, hfull⟩ | ⟨rfl, hpending⟩ | ⟨rfl, hhere⟩
  · rcases blocked_worker hworker with hgone | ⟨-, hqueue⟩
    · simp [isGone, hgone] at hhere
    · simp [hqueue, queueCapacity] at hfull
  · rcases blocked_worker hworker with hgone | ⟨hphase, hqueue⟩
    · exact hpending (h.drained (h.closed_of_isGone (by simp [isGone, hgone])))
    · obtain ⟨-, -, hcount⟩ := h.waiting hphase hqueue
      exact hpending hcount
  · simp [h.isGone_of_dismissed (hjoining rfl) hworker] at hhere

end Terminal

namespace Case

/-! ## The teardown -/

/-- What may be left of the teardown of `n` terminals: no close comes after a join. -/
structure Teardown (n : Nat) (caller : Caller) : Prop where
  calls : ∀ x ∈ caller.todo, x.1 < n ∧ (x.2 = .close ∨ x.2 = .join)
  sorted : caller.todo.Pairwise fun x y => x.2 = .join → y.2 = .join
  current : ∀ i stage, caller.current = some (i, stage) → i < n ∧
    (stage.task? = some .shutdown ∨
      (stage = .claiming ∨ stage = .joining) ∧ ∀ x ∈ caller.todo, x.2 = .join)

theorem mem_teardownCalls
    {n i : Nat} (hi : i < n) : (i, Call.close) ∈ teardownCalls n :=
  List.mem_append_left _ (List.mem_map.mpr ⟨i, List.mem_range.mpr hi, rfl⟩)

theorem teardown_new (n : Nat) : Teardown n { todo := teardownCalls n } where
  calls x hx := by
    rcases List.mem_append.mp hx with hin | hin
    · obtain ⟨i, hi, rfl⟩ := List.mem_map.mp hin
      exact ⟨List.mem_range.mp hi, Or.inl rfl⟩
    · obtain ⟨i, hi, rfl⟩ := List.mem_map.mp hin
      exact ⟨List.mem_range.mp hi, Or.inr rfl⟩
  sorted := by
    refine List.pairwise_append.mpr ⟨?_, ?_, ?_⟩
    · refine List.pairwise_map.mpr (List.pairwise_of_forall ?_)
      intro i j hjoin
      cases hjoin
    · refine List.pairwise_map.mpr (List.pairwise_of_forall ?_)
      exact fun _ _ _ => rfl
    · intro x _ y hy _
      obtain ⟨j, -, rfl⟩ := List.mem_map.mp hy
      rfl
  current i stage h := by cases h

theorem Teardown.step
    {n : Nat} {caller caller' : Caller} {ts ts' : List Terminal} (h : Teardown n caller)
    (hstep : caller.step ts = some (ts', caller')) : Teardown n caller' := by
  rcases Caller.step_cases hstep with
    ⟨k, call, todo, -, htodo, -, hcurrent, htodo'⟩ |
    ⟨k, stage, t, t', p, hcurrent, -, hcall, -, hcurrent', htodo⟩
  · have hcalls := h.calls
    have hsorted := h.sorted
    rw [htodo] at hcalls hsorted
    obtain ⟨hfirst, hrest⟩ := List.pairwise_cons.mp hsorted
    subst htodo'
    refine ⟨fun x hx => hcalls x (List.mem_cons_of_mem _ hx), hrest, ?_⟩
    intro i stage hstage
    rw [hcurrent] at hstage
    cases hstage
    obtain ⟨hk, hclose | hjoin⟩ := hcalls (k, call) List.mem_cons_self
    · obtain rfl : call = .close := hclose
      exact ⟨hk, Or.inl rfl⟩
    · obtain rfl : call = .join := hjoin
      exact ⟨hk, Or.inr ⟨Or.inl rfl, fun x hx => hfirst x hx rfl⟩⟩
  · have hadvances := Terminal.advances_of_callStep hcall
    obtain ⟨hk, hstage⟩ := h.current k stage hcurrent
    refine ⟨htodo ▸ h.calls, htodo ▸ h.sorted, ?_⟩
    intro i next hnext
    rw [hcurrent'] at hnext
    cases p with
    | done answer => cases hnext
    | goOn stage' =>
        cases hnext
        refine ⟨hk, ?_⟩
        rcases hstage with htask | ⟨rfl | rfl, hjoins⟩
        · exact Or.inl (hadvances.task? htask)
        · cases hadvances
          exact Or.inr ⟨Or.inr rfl, htodo ▸ hjoins⟩
        · cases hadvances

/-- The thread has closed the terminal. -/
def Thread.HasClosed (i : Nat) : Thread → Prop
  | .ending caller _ => (i, .close) ∉ caller.todo ∧
      ∀ stage, caller.current = some (i, stage) → stage.task? ≠ some .shutdown
  | .returned _ => True
  | .body _ | .calling _ _ _ _ => False

theorem Thread.HasClosed.current
    {i : Nat} {thread : Thread} {stage : Stage} (h : thread.HasClosed i)
    (hcurrent : thread.current = some (i, stage)) : stage.task? ≠ some .shutdown := by
  cases thread with
  | ending caller outcome => exact h.2 stage hcurrent
  | returned outcome => cases hcurrent
  | body rest => exact h.elim
  | calling k other target rest => exact h.elim

/-- Where a thread has closed a terminal, it had done so before or was about to. -/
theorem Turn.hasClosed
    {db : Database σ} {env : Environment} {m m' : Running σ} {hs : List Happening}
    (h : Turn db env m hs m') {i : Nat} (hi : i < m.terminals.length)
    (hclosed : m'.thread.HasClosed i) :
    m.thread.HasClosed i ∨ ∃ stage ∈ m.stagesOn i, stage.task? = some .shutdown := by
  have hleave : (i, Call.close) ∉ teardownCalls m.terminals.length → False :=
    fun hnot => hnot (mem_teardownCalls hi)
  cases h with
  | work => exact Or.inl hclosed
  | finish => exact (hleave hclosed.1).elim
  | refuse => exact (hleave hclosed.1).elim
  | fail => exact (hleave hclosed.1).elim
  | start => exact hclosed.elim
  | evaluate => exact hclosed.elim
  | pass => exact hclosed.elim
  | begin => exact hclosed.elim
  | goOn => exact hclosed.elim
  | answer =>
      rename_i k stage answer target rest t t' hthread ht hstep
      cases answer with
      | nothing => exact hclosed.elim
      | value v => exact hclosed.elim
      | error e =>
          refine (hleave ?_).elim
          simpa using hclosed.1
  | tear hthread hstep =>
      rename_i caller caller' outcome ts
      rw [Running.stagesOn, hthread]
      rcases Caller.step_cases hstep with
        ⟨k, call, todo, hidle, htodo, -, hcurrent, rfl⟩ |
        ⟨k, stage, t, t', p, hcurrent, -, hcall, -, hcurrent', htodo⟩
      · left
        refine ⟨?_, by simp [hidle]⟩
        intro hin
        rw [htodo] at hin
        rcases List.mem_cons.mp hin with heq | hin
        · cases heq
          exact hclosed.2 _ hcurrent rfl
        · exact hclosed.1 hin
      · by_cases htask : k = i ∧ stage.task? = some .shutdown
        · right
          exact ⟨stage, Terminal.mem_stagesOf.mpr (htask.1 ▸ hcurrent), htask.2⟩
        · left
          refine ⟨htodo ▸ hclosed.1, ?_⟩
          intro stage' hstage' hshutdown
          rw [hcurrent] at hstage'
          cases hstage'
          exact htask ⟨rfl, hshutdown⟩
  | «return» hthread hdone =>
      left
      obtain ⟨hidle, htodo⟩ := Caller.isDone_iff.mp hdone
      rw [hthread]
      exact ⟨by simp [htodo], by simp [hidle]⟩

/-! ## Sound cases -/

/-- The thread makes calls that a body or a teardown makes, on terminals that there are. -/
def Thread.Proper (n : Nat) : Thread → Prop
  | .calling i stage _ _ => i < n ∧ stage.Ordinary
  | .ending caller _ => Teardown n caller
  | .body _ | .returned _ => True

/-- A terminal is in order, somebody has a handle of it, and closing it dismisses its worker. -/
structure Attended (m : Running σ) (i : Nat) (t : Terminal) (l : Ledger) : Prop where
  orderly : Orderly t (m.stagesOn i) l
  handles : t.handles ≠ 0
  deserted : l.deserted = false
  dismissed : m.thread.HasClosed i → t.Dismissed l

/-- What holds of a case at all times. -/
structure Running.Sound (m : Running σ) : Prop where
  names : ∀ name i, (name, Binding.terminal i) ∈ m.names → i < m.terminals.length
  thread : m.thread.Proper m.terminals.length
  terminals : ∀ i t, m.terminals[i]? = some t → ∃ l, Attended m i t l

theorem Thread.Proper.current
    {n i : Nat} {thread : Thread} {stage : Stage} (h : thread.Proper n)
    (hcurrent : thread.current = some (i, stage)) : i < n ∧ stage ≠ .giving := by
  cases thread with
  | body rest => cases hcurrent
  | returned outcome => cases hcurrent
  | calling k other target rest =>
      cases hcurrent
      refine ⟨h.1, ?_⟩
      rintro rfl
      exact h.2.2 (by simp)
  | ending caller outcome =>
      obtain ⟨hi, hstage⟩ := Teardown.current h i stage hcurrent
      refine ⟨hi, ?_⟩
      rintro rfl
      rcases hstage with htask | ⟨hclaim | hjoin, -⟩
      · cases htask
      · cases hclaim
      · cases hjoin

/-- A terminal is joined after it has been closed. -/
theorem Thread.Proper.hasClosed
    {n i : Nat} {thread : Thread} (h : thread.Proper n)
    (hcurrent : thread.current = some (i, .joining)) : thread.HasClosed i := by
  cases thread with
  | body rest => cases hcurrent
  | returned outcome => cases hcurrent
  | calling k stage target rest =>
      cases hcurrent
      exact absurd (by simp) h.2.2
  | ending caller outcome =>
      refine ⟨?_, ?_⟩
      · intro hin
        rcases (Teardown.current h i _ hcurrent).2 with htask | ⟨-, hjoins⟩
        · cases htask
        · cases hjoins _ hin
      · intro stage hstage
        have hjoining : caller.current = some (i, .joining) := hcurrent
        rw [hjoining] at hstage
        cases hstage
        simp [Stage.task?]

theorem mem_of_lookup
    {names : Bindings} {name : String} {b : Binding} (h : names.lookup name = some b) :
    (name, b) ∈ names := by
  obtain ⟨before, after, rfl, -⟩ := List.lookup_eq_some_iff.mp h
  simp

theorem mem_of_terminalOf?
    {names : Bindings} {name : String} {i : Nat} (h : terminalOf? names name = some i) :
    (name, .terminal i) ∈ names := by
  unfold terminalOf? at h
  split at h
  · rename_i hlookup
    cases h
    exact mem_of_lookup hlookup
  · cases h

theorem ordinary_of_callOf?
    {method : Method} {argument : Option String} {call : Call}
    (h : callOf? method argument = some call) : call.stage.Ordinary := by
  unfold callOf? at h
  split at h
  all_goals
    cases h
    try exact ⟨by simp [Call.stage, Stage.task?], by simp [Call.stage]⟩

/-- A terminal that is bound by a turn is the new one or was bound before. -/
theorem Turn.names
    {db : Database σ} {env : Environment} {m m' : Running σ} {hs : List Happening}
    (h : Turn db env m hs m') {name : String} {i : Nat}
    (hin : (name, Binding.terminal i) ∈ m'.names) :
    i < m'.terminals.length ∨ ∃ other, (other, Binding.terminal i) ∈ m.names := by
  cases h with
  | start =>
      rcases List.mem_cons.mp hin with heq | hin
      · cases heq
        exact Or.inl (by simp)
      · exact Or.inr ⟨name, hin⟩
  | evaluate hthread ha hb =>
      rename_i a target value b rest
      cases target with
      | none => exact Or.inr ⟨name, hin⟩
      | some target =>
          rcases List.mem_cons.mp hin with heq | hin
          · cases heq
            cases value with
            | «variable» other => exact Or.inr ⟨other, mem_of_lookup hb⟩
            | _ => cases hb
          · exact Or.inr ⟨name, hin⟩
  | answer =>
      rename_i k stage answer target rest t t' hthread ht hstep
      cases answer with
      | value v =>
          cases target with
          | none => exact Or.inr ⟨name, hin⟩
          | some target =>
              rcases List.mem_cons.mp hin with heq | hin
              · cases heq
              · exact Or.inr ⟨name, hin⟩
      | _ => exact Or.inr ⟨name, hin⟩
  | _ => exact Or.inr ⟨name, hin⟩

theorem Turn.length_le
    {db : Database σ} {env : Environment} {m m' : Running σ} {hs : List Happening}
    (h : Turn db env m hs m') : m.terminals.length ≤ m'.terminals.length := by
  by_contra hlt
  have hlast : m'.terminals.length < m.terminals.length := Nat.not_le.mp hlt
  obtain ⟨t', ht', -⟩ := h.visit (List.getElem?_eq_getElem hlast)
  exact absurd (List.getElem?_eq_some_iff.mp ht').1 (Nat.lt_irrefl _)

theorem Turn.proper
    {db : Database σ} {env : Environment} {m m' : Running σ} {hs : List Happening}
    (h : Turn db env m hs m') (hsound : m.Sound) : m'.thread.Proper m'.terminals.length := by
  have hthread := hsound.thread
  cases h with
  | work => simpa using hthread
  | finish => exact teardown_new _
  | start => trivial
  | refuse => exact teardown_new _
  | evaluate => trivial
  | pass => trivial
  | fail => exact teardown_new _
  | begin hbody ha hi hcall =>
      exact ⟨hsound.names _ _ (mem_of_terminalOf? hi), ordinary_of_callOf? hcall⟩
  | goOn hcalling ht hstep =>
      rw [hcalling] at hthread
      refine ⟨?_, hthread.2.advances (Terminal.advances_of_callStep hstep)⟩
      simpa using hthread.1
  | answer =>
      rename_i answer target rest t t' hcalling ht hstep
      cases answer with
      | error e => exact teardown_new _
      | _ => trivial
  | tear hending hstep =>
      rename_i caller caller' outcome ts
      rw [hending] at hthread
      have hlength : ts.length = m.terminals.length := by
        rcases Caller.step_cases hstep with
          ⟨_, _, _, -, -, rfl, -⟩ | ⟨_, _, _, _, _, -, -, -, rfl, -⟩
        · rfl
        · simp
      rw [hlength]
      exact hthread.step hstep
  | «return» => trivial

theorem Turn.attended
    {db : Database σ} {env : Environment} {m m' : Running σ} {hs : List Happening}
    (h : Turn db env m hs m') (hproper : m.thread.Proper m.terminals.length) {i : Nat}
    {t : Terminal} {l : Ledger} (ht : m.terminals[i]? = some t) (hattended : Attended m i t l) :
    ∃ t' l', m'.terminals[i]? = some t' ∧ Attended m' i t' l' := by
  have hgiving : .giving ∉ m.stagesOn i :=
    fun hin => (hproper.current (Terminal.mem_stagesOf.mp hin)).2 rfl
  obtain ⟨t', ht', hvisit⟩ := h.visit ht
  obtain ⟨hhandles, hdeserted⟩ := hvisit.attended (l := l) hgiving hattended.handles
  refine ⟨t', l.recordAll (deedsOn i hs), ht', hattended.orderly.visit hvisit, hhandles, ?_, ?_⟩
  · rw [hdeserted]
    exact hattended.deserted
  · intro hclosed
    have hi : i < m.terminals.length := (List.getElem?_eq_some_iff.mp ht).1
    rcases h.hasClosed hi hclosed with hbefore | ⟨stage, hstage, htask⟩
    · exact (hattended.dismissed hbefore).visit hvisit
    · rcases hvisit.dismiss hattended.orderly hstage htask with ⟨next, hnext, hshutdown⟩ | hdone
      · exact absurd hshutdown (hclosed.current (Terminal.mem_stagesOf.mp hnext))
      · exact hdone

/-- A thread in a call moves as the call does. -/
theorem threadStep_eq_none_iff
    {db : Database σ} {env : Environment} {m : Running σ} {i : Nat} {t : Terminal} {stage : Stage}
    (hcurrent : m.thread.current = some (i, stage)) (ht : m.terminals[i]? = some t) :
    m.threadStep db env = none ↔ t.callStep stage = none := by
  cases hthread : m.thread with
  | body rest =>
      rw [hthread] at hcurrent
      cases hcurrent
  | returned outcome =>
      rw [hthread] at hcurrent
      cases hcurrent
  | calling k stage' target rest =>
      rw [hthread] at hcurrent
      cases hcurrent
      simp only [Running.threadStep, hthread, ht]
      split <;> simp_all
  | ending caller outcome =>
      rw [hthread] at hcurrent
      have hbusy : caller.current = some (i, stage) := hcurrent
      simp only [Running.threadStep, hthread, Caller.isDone, hbusy, Option.isNone_some,
        Bool.false_and, Bool.false_eq_true, if_false, Caller.step, ht]
      rcases t.callStep stage with _ | ⟨t', _ | _⟩ <;> simp

/-- A thread that is in no call cannot move only if it has returned or uses a name that stands for
nothing fitting. -/
theorem idle_of_threadStep
    {db : Database σ} {env : Environment} {m : Running σ} (hcurrent : m.thread.current = none)
    (hblocked : m.threadStep db env = none) :
    (∃ outcome, m.thread = .returned outcome) ∨
      ∃ a rest, m.thread = .body (a :: rest) ∧ m.act db env a rest = none := by
  unfold Running.threadStep at hblocked
  cases hthread : m.thread with
  | body rest =>
      cases rest with
      | nil => simp [hthread] at hblocked
      | cons a rest => exact Or.inr ⟨a, rest, rfl, by simpa [hthread] using hblocked⟩
  | returned outcome => exact Or.inl ⟨outcome, rfl⟩
  | calling i stage target rest =>
      rw [hthread] at hcurrent
      cases hcurrent
  | ending caller outcome =>
      rw [hthread] at hcurrent
      have hidle : caller.current = none := hcurrent
      rcases htodo : caller.todo with _ | ⟨⟨k, call⟩, todo⟩
      · simp [hthread, Caller.isDone, hidle, htodo] at hblocked
      · simp [hthread, Caller.isDone, Caller.step, hidle, htodo] at hblocked

namespace Running

theorem sound_new (w : σ) (p : Plan) : (Running.new w p).Sound where
  names := by simp [Running.new]
  thread := trivial
  terminals := by simp [Running.new]

/-- Every turn keeps a case sound. -/
theorem Sound.turn
    {db : Database σ} {env : Environment} {m m' : Running σ} (h : m.Sound)
    {hs : List Happening} (hturn : Turn db env m hs m') : m'.Sound where
  names name i hin := by
    rcases hturn.names hin with hnew | ⟨other, hold⟩
    · exact hnew
    · exact Nat.lt_of_lt_of_le (h.names other i hold) hturn.length_le
  thread := hturn.proper h
  terminals i t' ht' := by
    by_cases hi : i < m.terminals.length
    · obtain ⟨l, hattended⟩ := h.terminals i _ (List.getElem?_eq_getElem hi)
      obtain ⟨u, l', hu, hattended'⟩ :=
        hturn.attended h.thread (List.getElem?_eq_getElem hi) hattended
      rw [hu] at ht'
      cases ht'
      exact ⟨l', hattended'⟩
    · obtain ⟨name, connection, rest, rfl, hthread⟩ := hturn.fresh (Nat.not_lt.mp hi) ht'
      have hfresh : Terminal.Fresh { name, connection } := ⟨name, connection, 1, rfl⟩
      refine ⟨{}, ?_, Nat.one_ne_zero, rfl, ?_⟩
      · rw [stagesOn, hthread]
        exact hfresh.orderly
      · rw [hthread]
        exact False.elim

/-- A call that is blocked waits for a worker that can move. -/
theorem Sound.worker_moves
    {m : Running σ} {i : Nat} {t : Terminal} {stage : Stage} (h : m.Sound)
    (hcurrent : m.thread.current = some (i, stage)) (ht : m.terminals[i]? = some t)
    (hblocked : t.callStep stage = none) (db : Database σ) : m.workerStep db i ≠ none := by
  intro hworker
  obtain ⟨l, hattended⟩ := h.terminals i t ht
  have horderly := hattended.orderly
  rw [stagesOn, hcurrent, Terminal.stagesOf, if_pos rfl] at horderly
  refine horderly.worker_moves hblocked ?_ db m.world ?_
  · rintro rfl
    exact hattended.dismissed (h.thread.hasClosed hcurrent)
  · simp only [workerStep, ht] at hworker
    split at hworker
    · assumption
    · cases hworker

/-- A thread that cannot move has returned, uses a name that stands for nothing fitting, or waits
for a worker that can move. -/
theorem Sound.blocked
    {db : Database σ} {env : Environment} {m : Running σ} (h : m.Sound)
    (hblocked : m.threadStep db env = none) :
    (∃ outcome, m.thread = .returned outcome) ∨
      (∃ a rest, m.thread = .body (a :: rest) ∧ m.act db env a rest = none) ∨
      ∃ i stage, m.thread.current = some (i, stage) ∧ m.workerStep db i ≠ none := by
  rcases hcurrent : m.thread.current with _ | ⟨i, stage⟩
  · rcases idle_of_threadStep hcurrent hblocked with hreturned | hstuck
    · exact Or.inl hreturned
    · exact Or.inr (Or.inl hstuck)
  · have ht := List.getElem?_eq_getElem (h.thread.current hcurrent).1
    have hcall := (threadStep_eq_none_iff hcurrent ht).mp hblocked
    exact Or.inr (Or.inr ⟨i, stage, rfl, h.worker_moves hcurrent ht hcall db⟩)

/-- Where nothing moves, the case has returned or its body uses a name that stands for nothing
fitting. -/
theorem Sound.final
    {db : Database σ} {env : Environment} {m : Running σ} (h : m.Sound)
    (hfinal : ∀ m', ¬ Step db env m m') :
    (∃ outcome, m.thread = .returned outcome) ∨
      ∃ a rest, m.thread = .body (a :: rest) ∧ m.act db env a rest = none := by
  have hmove : ∀ mover, m.move db env mover = none :=
    fun mover => Option.eq_none_iff_forall_not_mem.mpr fun m' hm' => hfinal m' ⟨mover, hm'⟩
  rcases h.blocked (hmove .thread) with hreturned | hstuck | ⟨i, stage, -, hworker⟩
  · exact Or.inl hreturned
  · exact Or.inr hstuck
  · exact absurd (hmove (.worker i)) hworker

end Running

end Case

end CaseSuite
