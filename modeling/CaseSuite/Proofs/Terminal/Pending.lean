import CaseSuite.Proofs.Terminal.Exit

/-!
# The count of pending tasks

Callers count their tasks up, the worker counts them down, a caller whose queue is gone takes its
count back, and a worker that leaves sets the count to zero.  As long as the worker takes tasks the
count is exact, and nothing is ever taken off a count of zero.  Only a caller that comes back after
the worker has left finds less than it counted; nothing is taken off then, and nothing else on the
terminal changes any more but the last result.
-/

namespace CaseSuite
namespace Terminal

variable {σ : Type}

/-! ## While the worker takes tasks -/

namespace Orderly

variable {t : Terminal} {stages : Multiset Stage} {l : Ledger}

/-- Every counted task is in the queue, in the hand of the worker or about to be sent. -/
theorem exists_hand (h : Orderly t stages l) (hopen : t.closed = false) :
    ∃ hand : Option Task, l.taken = l.tasks ++ hand.toList ∧
      t.pending = t.queue.length + hand.toList.length + senders stages := by
  have hcounted := h.counted hopen
  rcases h.standing.taken_cases with ⟨htaken, -⟩ | ⟨task, htaken⟩
  · refine ⟨none, by simpa using htaken, ?_⟩
    rw [htaken, l.length_tasks] at hcounted
    simp only [Option.toList_none, List.length_nil]
    omega
  · refine ⟨some task, htaken, ?_⟩
    rw [htaken, List.length_append, l.length_tasks] at hcounted
    simp only [Option.toList_some, List.length_singleton] at hcounted ⊢
    omega

/-- The task that the worker counts as done is still counted. -/
theorem pending_pos (h : Orderly t stages l) (hphase : t.phase = .finishing) : 0 < t.pending := by
  have hopen : t.closed = false := by
    simpa [hphase, Phase.isSealed] using h.closed_iff
  obtain ⟨hand, htaken, hpending⟩ := h.exists_hand hopen
  obtain ⟨round, hround, -⟩ := h.standing_of hphase
  have hhand : hand.toList = [round.task] := List.append_cancel_left (htaken.symm.trans hround)
  rw [hpending, hhand, List.length_singleton]
  omega

/-- Nobody takes a count back while the worker takes tasks. -/
theorem not_uncounting (h : Orderly t stages l) (hopen : t.closed = false) (task : Task) :
    .uncounting task ∉ stages := by
  intro hin
  rw [h.closed_of_isGone (h.uncounting task hin)] at hopen
  cases hopen

end Orderly

/-- A step of the worker that is no count down takes nothing off the count, unless it is the step
that refuses all further tasks. -/
theorem Works.pending_le
    {db : Database σ} {w w' : σ} {t t' : Terminal} {deeds : List Deed}
    (h : Works db w t deeds w' t') (hphase : t.phase ≠ .finishing) :
    t.pending ≤ t'.pending ∨ t'.closed = true := by
  cases h with
  | finish h => exact absurd h hphase
  | refuse => exact Or.inr rfl
  | _ => exact Or.inl (Nat.le_refl _)

/-- A step of a caller that is no count down takes nothing off the count. -/
theorem Advances.pending_le
    {t t' : Terminal} {stage : Stage} {deeds : List Deed} {p : Progress}
    (h : Advances t stage deeds t' p) (hstage : ∀ task, stage ≠ .uncounting task) :
    t.pending ≤ t'.pending := by
  cases h with
  | count => exact Nat.le_succ _
  | uncount task => exact absurd rfl (hstage task)
  | reject task => cases task <;> exact Nat.le_refl _
  | _ => exact Nat.le_refl _

/-! ## After the worker has left -/

/-- The worker has announced for good that it has shut down. -/
def Phase.isAnnounced : Phase → Bool
  | .sealing | .dropping | .gone => true
  | _ => false

theorem Phase.isAnnounced_of_isSealed {phase : Phase} (h : phase.isSealed = true) :
    phase.isAnnounced = true := by
  cases phase <;> simp_all [isSealed, isAnnounced]

/-- Nobody but the worker changes the status, and its last announcement is that it has shut down. -/
theorem Visit.announced
    {t t' : Terminal} {stages stages' : Multiset Stage} {deeds : List Deed}
    (h : Visit t stages deeds t' stages')
    (hbefore : t.phase.isAnnounced = true → t.status = .shutDown) :
    t'.phase.isAnnounced = true → t'.status = .shutDown := by
  cases h with
  | pass => exact hbefore
  | begin => exact hbefore
  | work _ works =>
      cases works with
      | leave => exact fun _ => rfl
      | refuse hphase => exact fun _ => hbefore (by rw [hphase]; rfl)
      | drop hphase => exact fun _ => hbefore (by rw [hphase]; rfl)
      | execute | fetch | close =>
          rename_i reply _ _
          cases reply <;> exact fun hannounced => by cases hannounced
      | _ => exact fun hannounced => by cases hannounced
  | goOn _ advances =>
      cases advances with
      | reject task => cases task <;> exact hbefore
      | _ => exact hbefore

/-- The deed is one of a caller: no task is taken, run or finished by it. -/
def Deed.isCallers : Deed → Bool
  | .began _ | .sent _ | .rejected _ => true
  | .took _ | .deserted | .ran _ | .finished => false

/-- A task other than the request to leave comes too late. -/
def Deed.isRefusal : Deed → Bool
  | .rejected task => task ≠ .shutdown
  | _ => false

/-- What a terminal shows once its worker refuses tasks. -/
structure Refusing (t : Terminal) : Prop where
  phase : t.phase.isSealed = true
  closed : t.closed = true
  pending : t.pending = 0
  status : t.status = .shutDown

/-- The last result after some deeds on a terminal that refuses tasks. -/
def lastAfter (last : Verdict) (deeds : List Deed) : Verdict :=
  if deeds.any Deed.isRefusal then .shutDown else last

theorem lastAfter_append (last : Verdict) (ds es : List Deed) :
    lastAfter last (ds ++ es) = lastAfter (lastAfter last ds) es := by
  unfold lastAfter
  rw [List.any_append]
  cases ds.any Deed.isRefusal with
  | true => simp
  | false => simp

/-- Whoever makes a step, a terminal that refuses tasks stays as it is, but for the last result. -/
theorem Refusing.visit
    {t t' : Terminal} {stages stages' : Multiset Stage} {deeds : List Deed} (h : t.Refusing)
    (hvisit : Visit t stages deeds t' stages') :
    t'.Refusing ∧ (∀ deed ∈ deeds, deed.isCallers = true) ∧ t'.last = lastAfter t.last deeds := by
  obtain ⟨hphase, hclosed, hpending, hstatus⟩ := h
  cases hvisit with
  | pass => exact ⟨⟨hphase, hclosed, hpending, hstatus⟩, by simp, rfl⟩
  | begin => exact ⟨⟨hphase, hclosed, hpending, hstatus⟩, by simp [Deed.isCallers], rfl⟩
  | work _ works =>
      cases works with
      | drop => exact ⟨⟨rfl, hclosed, hpending, hstatus⟩, by simp, rfl⟩
      | _ => simp_all [Phase.isSealed]
  | goOn _ advances =>
      cases advances with
      | count task hopen => simp [hclosed] at hopen
      | send => exact ⟨⟨hphase, hclosed, hpending, hstatus⟩, by simp [Deed.isCallers], rfl⟩
      | uncount =>
          -- the count is zero already, so taking one off leaves it there
          exact ⟨⟨hphase, hclosed, by rw [finish, hpending], hstatus⟩, by simp, rfl⟩
      | reject task =>
          cases task <;>
            exact ⟨⟨hphase, hclosed, hpending, hstatus⟩, by simp [Deed.isCallers], rfl⟩
      | _ => exact ⟨⟨hphase, hclosed, hpending, hstatus⟩, by simp, rfl⟩

namespace System

/-- The next step of somebody takes one off the count of pending tasks of a terminal. -/
inductive Uncounts (s : System σ) (i : Nat) : Mover → Prop
  /-- The worker counts a task as done. -/
  | finish {t : Terminal} (ht : s.terminals[i]? = some t) (phase : t.phase = .finishing) :
      Uncounts s i (.worker i)
  /-- A caller takes the count of its task back. -/
  | takeBack {j : Nat} {c : Caller} {task : Task} (hc : s.callers[j]? = some c)
      (current : c.current = some (i, .uncounting task)) : Uncounts s i (.caller j)

/-- What is taken off the count of a terminal in order was counted. -/
theorem pending_of_uncounts
    {db : Database σ} {s s' : System σ} {i : Nat} {mover : Mover} {t t' : Terminal} {l : Ledger}
    (ht : s.terminals[i]? = some t) (h : Orderly t (s.stages i) l) (hopen : t.closed = false)
    (hmove : s.move db mover = some s') (ht' : s'.terminals[i]? = some t')
    (huncounts : s.Uncounts i mover) : t'.pending + 1 = t.pending := by
  cases huncounts with
  | finish hu hphase =>
      obtain rfl := Option.some.inj (ht.symm.trans hu)
      have hpos := h.pending_pos hphase
      obtain ⟨u, w, u', hu, hstep, rfl⟩ := move_worker hmove
      obtain rfl := Option.some.inj (ht.symm.trans hu)
      simp only [workerStep, hphase, Option.some.injEq, Prod.mk.injEq] at hstep
      have hlength : i < s.terminals.length := (List.getElem?_eq_some_iff.mp ht).1
      rw [List.getElem?_set_self hlength, ← hstep.2] at ht'
      obtain rfl := Option.some.inj ht'
      exact Nat.sub_add_cancel hpos
  | takeBack hc hcurrent => exact absurd (mem_stages hc hcurrent) (h.not_uncounting hopen _)

/-- No other step takes anything off the count, unless it is the step that refuses all further
tasks. -/
theorem pending_le_of_not_uncounts
    {db : Database σ} {s s' : System σ} {i : Nat} {mover : Mover} {t t' : Terminal}
    (ht : s.terminals[i]? = some t) (hmove : s.move db mover = some s')
    (ht' : s'.terminals[i]? = some t') (hnot : ¬ s.Uncounts i mover) :
    t.pending ≤ t'.pending ∨ t'.closed = true := by
  cases mover with
  | worker k =>
      obtain ⟨u, w, u', hu, hstep, rfl⟩ := move_worker hmove
      rcases getElem?_set_cases ht ht' with ⟨rfl, rfl⟩ | ⟨-, rfl⟩
      · obtain rfl := Option.some.inj (ht.symm.trans hu)
        exact (works_of_workerStep hstep).pending_le fun hphase =>
          hnot (Uncounts.finish ht hphase)
      · exact Or.inl (Nat.le_refl _)
  | caller j =>
      obtain ⟨c, ts, c', hc, hstep, rfl⟩ := move_caller hmove
      rcases Caller.step_cases hstep with
        ⟨k, call, todo, -, -, rfl, -⟩ | ⟨k, stage, u, u', p, hcurrent, hu, hcall, rfl, -⟩
      · obtain rfl := Option.some.inj (ht.symm.trans ht')
        exact Or.inl (Nat.le_refl _)
      · rcases getElem?_set_cases ht ht' with ⟨rfl, rfl⟩ | ⟨-, rfl⟩
        · obtain rfl := Option.some.inj (ht.symm.trans hu)
          refine Or.inl ((advances_of_callStep hcall).pending_le ?_)
          rintro task rfl
          exact hnot (Uncounts.takeBack hc hcurrent)
        · exact Or.inl (Nat.le_refl _)

/-- Along every schedule a worker that refuses tasks has announced that it has shut down. -/
theorem announced_run
    {db : Database σ} {s s' : System σ} {i : Nat} {movers : List Mover} {t : Terminal}
    (ht : s.terminals[i]? = some t)
    (h : t.phase.isAnnounced = true → t.status = .shutDown)
    (hrun : s.runSchedule db movers = some s') :
    ∃ t', s'.terminals[i]? = some t' ∧ (t'.phase.isAnnounced = true → t'.status = .shutDown) := by
  induction movers generalizing s t with
  | nil =>
      cases hrun
      exact ⟨t, ht, h⟩
  | cons mover movers ih =>
      obtain ⟨next, hmove, hrest⟩ := Option.bind_eq_some_iff.mp hrun
      obtain ⟨t', ht', hvisit⟩ := visit_of_move hmove ht
      exact ih ht' (hvisit.announced h) hrest

/-- Along every schedule a terminal that refuses tasks stays as it is, but for the last result. -/
theorem refusing_run
    {db : Database σ} {s s' : System σ} {i : Nat} {movers : List Mover} {t : Terminal}
    (ht : s.terminals[i]? = some t) (h : t.Refusing) (hrun : s.runSchedule db movers = some s') :
    ∃ t', s'.terminals[i]? = some t' ∧ t'.Refusing ∧
      (∀ deed ∈ s.history db i movers, deed.isCallers = true) ∧
      t'.last = lastAfter t.last (s.history db i movers) := by
  induction movers generalizing s t with
  | nil =>
      cases hrun
      exact ⟨t, ht, h, by simp [history], rfl⟩
  | cons mover movers ih =>
      obtain ⟨next, hmove, hrest⟩ := Option.bind_eq_some_iff.mp hrun
      obtain ⟨t', ht', hvisit⟩ := visit_of_move hmove ht
      obtain ⟨hrefusing, hfirst, hlast⟩ := h.visit hvisit
      obtain ⟨final, hfinal, hstays, hmore, hlast'⟩ := ih ht' hrefusing hrest
      refine ⟨final, hfinal, hstays, ?_, ?_⟩
      · simp only [history, hmove]
        exact List.forall_mem_append.mpr ⟨hfirst, hmore⟩
      · simp only [history, hmove, lastAfter_append, ← hlast]
        exact hlast'

/--
The count of pending tasks along every schedule.  As long as the worker takes tasks, the count is
the number of tasks in the queue, of tasks that the worker has taken and not finished, of which
there is at most one, and of callers that have counted their task and not sent it; and whoever takes
one off the count finds it there.  From the moment the worker refuses tasks, the count stays zero
and the status stays that it has shut down, no task is taken, run or finished any more, and the last
result changes only when a task comes too late, to the error that says so.
-/
theorem pending_is_exact
    {db : Database σ} {s₀ s : System σ} {i : Nat} {movers : List Mover} {t : Terminal}
    (fresh : s₀.FreshAt i) (hrun : s₀.runSchedule db movers = some s)
    (ht : s.terminals[i]? = some t) :
    (t.closed = false →
      (∃ hand : Option Task,
        (s₀.ledger db i movers).taken = (s₀.ledger db i movers).tasks ++ hand.toList ∧
        t.pending = t.queue.length + hand.toList.length + senders (s.stages i)) ∧
      ∀ mover s' t', s.move db mover = some s' → s'.terminals[i]? = some t' →
        (s.Uncounts i mover → t'.pending + 1 = t.pending) ∧
        (¬ s.Uncounts i mover → t.pending ≤ t'.pending ∨ t'.closed = true)) ∧
    (t.closed = true →
      ∀ after s' t', s.runSchedule db after = some s' → s'.terminals[i]? = some t' →
        t'.closed = true ∧ t'.pending = 0 ∧ t'.status = .shutDown ∧
        (∀ deed ∈ s.history db i after, deed.isCallers = true) ∧
        t'.last = if (s.history db i after).any Deed.isRefusal then
          ⟨.error, "terminal shut down"⟩ else t.last) := by
  obtain ⟨u, hu, horderly⟩ := fresh.ordered.run hrun
  obtain rfl := Option.some.inj (ht.symm.trans hu)
  constructor
  · intro hopen
    refine ⟨horderly.exists_hand hopen, ?_⟩
    intro mover s' t' hmove ht'
    exact ⟨pending_of_uncounts ht horderly hopen hmove ht',
      pending_le_of_not_uncounts ht hmove ht'⟩
  · intro hclosed after s' t' hafter ht'
    obtain ⟨⟨t₀, ht₀, name, connection, handles, rfl⟩, -⟩ := fresh
    obtain ⟨v, hv, hannounced⟩ := announced_run ht₀ (fun h => by cases h) hrun
    obtain rfl := Option.some.inj (ht.symm.trans hv)
    have hsealed := horderly.closed_iff.mp hclosed
    have hrefusing : t.Refusing := ⟨hsealed, hclosed, horderly.drained hclosed,
      hannounced (Phase.isAnnounced_of_isSealed hsealed)⟩
    obtain ⟨final, hfinal, hstays, hcallers, hlast⟩ := refusing_run ht hrefusing hafter
    obtain rfl := Option.some.inj (ht'.symm.trans hfinal)
    exact ⟨hstays.closed, hstays.pending, hstays.status, hcallers, hlast⟩

/-- The worker holds the first task, the second one is queued and the third one only counted; later
the worker is lost and refuses tasks, and the third task, whose count is gone, comes too late. -/
theorem pending_is_exact_lostWorker :
    let busy := countedOnly ++ List.replicate 2 (Mover.worker 0)
    let left := countedOnly ++ List.replicate 8 (Mover.worker 0)
    let after := Mover.worker 0 :: List.replicate 3 (Mover.caller 1)
    (∃ (t : Terminal) (hand : Option Task),
      (lostWorkerAfter busy).terminals[0]? = some t ∧ t.closed = false ∧
      (lostWorker.ledger Memory.database 0 busy).taken =
        (lostWorker.ledger Memory.database 0 busy).tasks ++ hand.toList ∧
      t.pending = t.queue.length + hand.toList.length +
        senders ((lostWorkerAfter busy).stages 0) ∧ t.pending = 3 ∧ t.queue = [.fetch "r"]) ∧
    ∃ t t' : Terminal, (lostWorkerAfter left).terminals[0]? = some t ∧ t.closed = true ∧
      (lostWorkerAfter (left ++ after)).terminals[0]? = some t' ∧ t'.pending = 0 ∧
      t'.status = .shutDown ∧ t.last ≠ t'.last ∧ t'.last = ⟨.error, "terminal shut down"⟩ := by
  intro busy left after
  have fresh : lostWorker.FreshAt 0 := ⟨⟨_, rfl, _, _, _, rfl⟩, rfl⟩
  have hbusy : lostWorker.runSchedule Memory.database busy = some (lostWorkerAfter busy) := by cbv
  have hleft : lostWorker.runSchedule Memory.database left = some (lostWorkerAfter left) := by cbv
  have hafter : (lostWorkerAfter left).runSchedule Memory.database after =
      some (lostWorkerAfter (left ++ after)) := by cbv
  obtain ⟨t, ht, hopen, hthree, hqueue⟩ : ∃ t : Terminal,
      (lostWorkerAfter busy).terminals[0]? = some t ∧ t.closed = false ∧ t.pending = 3 ∧
      t.queue = [.fetch "r"] := ⟨_, by rfl, by rfl, by rfl, by rfl⟩
  obtain ⟨u, u', hu, hclosed, hu', hlast⟩ : ∃ u u' : Terminal,
      (lostWorkerAfter left).terminals[0]? = some u ∧ u.closed = true ∧
      (lostWorkerAfter (left ++ after)).terminals[0]? = some u' ∧ u.last ≠ u'.last :=
    ⟨_, _, by rfl, by rfl, by rfl, by decide +kernel⟩
  obtain ⟨⟨hand, htaken, hpending⟩, -⟩ := (pending_is_exact fresh hbusy ht).1 hopen
  obtain ⟨-, hzero, hstatus, -, herror⟩ :=
    (pending_is_exact fresh hleft hu).2 hclosed after _ u' hafter hu'
  refine ⟨⟨t, hand, ht, hopen, htaken, hpending, hthree, hqueue⟩,
    u, u', hu, hclosed, hu', hzero, hstatus, hlast, ?_⟩
  exact herror.trans (if_pos (by decide +kernel))

end System

end Terminal
end CaseSuite
