import CaseSuite.Proofs.Terminal.Stored

/-!
# What a worker leaves behind

A worker leaves because it was told to, because nobody has a handle any more, or because the
database did not survive a call.  Tasks that it has not run by then never run.  What the last result
says about them depends on how they were lost: a task that came too late is recorded, and so is the
loss of the worker, but what is dropped with the queue of a worker that was told to leave is not.
`Departing` follows the last result from the moment the worker turns to leave.
-/

namespace CaseSuite
namespace Terminal

variable {σ : Type}

/-- The worker is about to record that it is lost. -/
def Phase.isCrashing : Phase → Bool
  | .crashing => true
  | _ => false

namespace Ledger

/-- A task other than the request to leave came too late. -/
def Refused (l : Ledger) : Prop :=
  ∃ task ∈ l.rejected, task ≠ .shutdown

instance (l : Ledger) : Decidable l.Refused :=
  inferInstanceAs (Decidable (∃ task ∈ l.rejected, task ≠ .shutdown))

/-- The last result of a worker that has left. -/
def farewell (l : Ledger) (panicked : Bool) : Verdict :=
  if l.Refused then .shutDown else if panicked then .crashed else l.verdict

/-- How the last result agrees with the ledger from the moment the worker turns to leave. -/
def Departing (l : Ledger) (panicked : Bool) (last : Verdict) : Phase → Prop
  | .starting .shutdown | .closing => panicked = false ∧ last = l.verdict
  | .crashing => panicked = true
  | .leaving | .sealing | .dropping | .gone =>
      last = l.farewell panicked ∧ (panicked = false → l.Retired)
  | _ => panicked = false

/-- The task of a call that has returned by the time of one ledger and has not run by the other. -/
def Neglected (told l : Ledger) (task : Task) : Prop :=
  task ≠ .shutdown ∧ (task ∈ told.rejected ∨ task ∈ told.sent.drop l.rounds.length)

instance (told l : Ledger) (task : Task) : Decidable (told.Neglected l task) :=
  inferInstanceAs (Decidable (_ ∧ _))

theorem Refused.recordAll
    {l : Ledger} (h : l.Refused) (deeds : List Deed) : (l.recordAll deeds).Refused := by
  induction deeds generalizing l with
  | nil => exact h
  | cons deed deeds ih =>
      apply ih
      obtain ⟨task, htask, hne⟩ := h
      cases deed with
      | rejected other => exact ⟨task, List.mem_append_left _ htask, hne⟩
      | _ => exact ⟨task, htask, hne⟩

theorem refused_rejected_iff
    (l : Ledger) (task : Task) :
    (l.record (.rejected task)).Refused ↔ l.Refused ∨ task ≠ .shutdown := by
  simp [Refused, record, or_and_right, exists_or]

/-- The farewell is an error exactly if work was refused, the worker was lost, or its work
failed. -/
theorem code_farewell
    (l : Ledger) (panicked : Bool) :
    (l.farewell panicked).code = .error ↔
      l.Refused ∨ panicked = true ∨ l.verdict.code = .error := by
  unfold farewell
  by_cases hrefused : l.Refused
  · simp [hrefused, Verdict.shutDown, Verdict.failure]
  · by_cases hpanicked : panicked = true
    · simp [hrefused, hpanicked, Verdict.crashed, Verdict.failure]
    · simp [hrefused, hpanicked]

theorem farewell_of_not_refused
    {l : Ledger} (h : ¬ l.Refused) (panicked : Bool) :
    l.farewell panicked = if panicked then .crashed else l.verdict :=
  if_neg h

/-- A task that comes too late shows, a second request to leave does not. -/
theorem farewell_rejected
    (l : Ledger) (panicked : Bool) (task : Task) :
    (l.record (.rejected task)).farewell panicked =
      if task = .shutdown then l.farewell panicked else .shutDown := by
  have hverdict : (l.record (.rejected task)).verdict = l.verdict := rfl
  rw [farewell, hverdict]
  by_cases htask : task = .shutdown
  · simp [farewell, refused_rejected_iff, htask]
  · simp [refused_rejected_iff, htask]

/-- Standing still changes nothing. -/
theorem Departing.still
    {l : Ledger} {panicked : Bool} {last : Verdict} {phase : Phase}
    (h : l.Departing panicked last phase) :
    l.Departing (panicked || phase.isCrashing) last phase := by
  cases phase with
  | crashing => exact Bool.or_true _
  | _ => simpa only [Phase.isCrashing, Bool.or_false] using h

/-- A worker that refuses tasks was told to leave or lost. -/
theorem Leaving.of_isSealed
    {l : Ledger} {phase : Phase} (h : l.Leaving phase) (hsealed : phase.isSealed = true) :
    l.Retired ∨ l.Lost := by
  cases phase with
  | dropping => exact h
  | gone => exact h
  | _ => cases hsealed

/-- All that is known of a worker that refuses tasks. -/
theorem departing_iff_of_isSealed
    {l : Ledger} {panicked : Bool} {last : Verdict} {phase : Phase}
    (hsealed : phase.isSealed = true) :
    l.Departing panicked last phase ↔
      last = l.farewell panicked ∧ (panicked = false → l.Retired) := by
  cases phase with
  | dropping => rfl
  | gone => rfl
  | _ => cases hsealed

end Ledger

namespace Accounted

variable {t t' : Terminal} {stages stages' : Multiset Stage} {deeds : List Deed} {l : Ledger}
  {panicked : Bool}

/-- Nothing comes too late before the worker refuses tasks. -/
theorem not_refused
    (h : Accounted t stages l) (hphase : t.phase.isSealed = false) : ¬ l.Refused := by
  rintro ⟨task, htask, -⟩
  have hsealed := h.orderly.closed_iff.mp (h.orderly.rejected (List.ne_nil_of_mem htask))
  simp [hphase] at hsealed

/-- A step of the worker. -/
theorem departing_work
    {db : Database σ} {w w' : σ} (h : Accounted t stages l)
    (hdeparting : l.Departing panicked t.last t.phase) (hworks : Works db w t deeds w' t') :
    (l.recordAll deeds).Departing (panicked || t'.phase.isCrashing) t'.last t'.phase := by
  -- what is known at the phase the step starts from
  have hfrom : ∀ {phase : Phase}, t.phase = phase → l.Departing panicked t.last phase := by
    rintro phase rfl
    exact hdeparting
  have hnone : ∀ {phase : Phase}, t.phase = phase → phase.isSealed = false → ¬ l.Refused := by
    rintro phase rfl
    exact h.not_refused
  cases hworks with
  | take hphase =>
      rename_i task _ _
      have hopen : panicked = false := hfrom hphase
      cases task with
      | shutdown => exact Ledger.Departing.still ⟨hopen, (h.orderly.standing_of hphase).2.2⟩
      | execute query => exact Ledger.Departing.still hopen
      | fetch name => exact Ledger.Departing.still hopen
  | desert hphase =>
      have hopen : panicked = false := hfrom hphase
      exact Ledger.Departing.still ⟨hopen, (h.orderly.standing_of hphase).2.2⟩
  | shut hphase =>
      have hbefore := hfrom hphase
      exact Ledger.Departing.still hbefore
  | execute hphase =>
      rename_i reply _
      have hopen : panicked = false := hfrom hphase
      cases reply with
      | crashed message => exact Bool.or_true _
      | done result => exact Ledger.Departing.still hopen
      | refused d => exact Ledger.Departing.still hopen
  | fetch hphase =>
      rename_i reply _
      have hopen : panicked = false := hfrom hphase
      cases reply with
      | crashed message => exact Bool.or_true _
      | done result => exact Ledger.Departing.still hopen
      | refused d => exact Ledger.Departing.still hopen
  | close hphase =>
      rename_i reply _
      obtain ⟨hopen, hlast⟩ := hfrom hphase
      have hretired : l.Retired := h.leaving_of hphase
      have hfarewell : t.last = l.farewell panicked := by
        rw [Ledger.farewell_of_not_refused (hnone hphase rfl), hopen]
        exact hlast
      cases reply with
      | crashed message => exact Bool.or_true _
      | done result => exact Ledger.Departing.still ⟨hfarewell, fun _ => hretired⟩
      | refused d => exact Ledger.Departing.still ⟨hfarewell, fun _ => hretired⟩
  | crash hphase =>
      have hpanicked : panicked = true := hfrom hphase
      have hfarewell : Verdict.crashed = l.farewell panicked := by
        rw [Ledger.farewell_of_not_refused (hnone hphase rfl), hpanicked]
        rfl
      exact Ledger.Departing.still ⟨hfarewell, by simp [hpanicked]⟩
  | leave hphase =>
      have hbefore := hfrom hphase
      exact Ledger.Departing.still hbefore
  | refuse hphase =>
      have hbefore := hfrom hphase
      exact Ledger.Departing.still hbefore
  | drop hphase =>
      have hbefore := hfrom hphase
      exact Ledger.Departing.still hbefore
  | _ =>
      rename_i hphase
      have hopen : panicked = false := hfrom hphase
      exact Ledger.Departing.still hopen

/-- A caller records that its task came too late. -/
theorem departing_reject
    {task : Task} (h : Accounted t (.rejecting task ::ₘ stages) l)
    (hdeparting : l.Departing panicked t.last t.phase) :
    (l.record (.rejected task)).Departing panicked (t.reject task).last (t.reject task).phase := by
  have hsealed : t.phase.isSealed = true :=
    h.orderly.closed_iff.mp (h.orderly.rejecting task (Multiset.mem_cons_self _ _))
  have hphase : (t.reject task).phase = t.phase := by cases task <;> rfl
  rw [hphase, Ledger.departing_iff_of_isSealed hsealed]
  rw [Ledger.departing_iff_of_isSealed hsealed] at hdeparting
  obtain ⟨hlast, hretired⟩ := hdeparting
  refine ⟨?_, hretired⟩
  rw [Ledger.farewell_rejected]
  cases task with
  | shutdown => exact hlast
  | execute query => rfl
  | fetch name => rfl

/-- Whoever makes a step, the last result of a worker that leaves is known. -/
theorem departing_visit
    (h : Accounted t stages l) (hdeparting : l.Departing panicked t.last t.phase)
    (hvisit : Visit t stages deeds t' stages') :
    (l.recordAll deeds).Departing (panicked || t'.phase.isCrashing) t'.last t'.phase := by
  cases hvisit with
  | pass => exact hdeparting.still
  | begin => exact hdeparting.still
  | work _ works => exact h.departing_work hdeparting works
  | goOn _ advances =>
      cases advances with
      | reject task => exact (h.departing_reject hdeparting).still
      | _ => exact hdeparting.still

/-- A task that has not run, though none was refused and the worker was not lost, stands behind the
request to leave. -/
theorem behind_shutdown
    (h : Accounted t stages l) (hretired : l.Retired) (hdeserted : l.deserted = false)
    {task : Task} {sent : List Task} (hsent : sent <+: l.sent) (hne : task ≠ .shutdown)
    (htask : task ∈ sent.drop l.rounds.length) :
    ∃ behind, l.sent = l.tasks ++ .shutdown :: behind ∧ task ∈ behind := by
  obtain ⟨hcurrent, ⟨hleft, -⟩ | htaken⟩ := hretired
  · simp [hdeserted] at hleft
  · obtain ⟨behind, hbehind⟩ := h.orderly.taken_prefix
    have hall : l.sent = l.tasks ++ .shutdown :: behind := by
      rw [← hbehind, htaken, List.append_assoc, List.singleton_append]
    refine ⟨behind, hall, ?_⟩
    have hlength : l.rounds.length = l.tasks.length := by
      simp [Ledger.rounds, hcurrent, Ledger.tasks]
    have hdrop : task ∈ l.sent.drop l.rounds.length := (hsent.drop _).subset htask
    rw [hlength, hall, List.drop_left, List.mem_cons] at hdrop
    exact hdrop.resolve_left hne

end Accounted

/-- A worker that refuses tasks runs none. -/
theorem Visit.sealed
    {t t' : Terminal} {stages stages' : Multiset Stage} {deeds : List Deed}
    (h : Visit t stages deeds t' stages') (hsealed : t.phase.isSealed = true) :
    t'.phase.isSealed = true ∧ deeds.filterMap Deed.round? = [] := by
  cases h with
  | pass => exact ⟨hsealed, rfl⟩
  | begin => exact ⟨hsealed, rfl⟩
  | work _ works => cases works <;> simp_all [Phase.isSealed]
  | goOn _ advances =>
      cases advances with
      | reject task => cases task <;> exact ⟨hsealed, rfl⟩
      | _ => exact ⟨hsealed, rfl⟩

namespace System

/-- Somewhere along a schedule the worker of the terminal is lost. -/
def panics (db : Database σ) (s : System σ) (i : Nat) : List Mover → Bool
  | [] => false
  | mover :: movers =>
      match s.move db mover with
      | some s' => (s'.terminals[i]?).any (·.phase.isCrashing) || s'.panics db i movers
      | none => false

/-- Along every schedule the last result of a worker that leaves is known. -/
theorem departing_run
    {db : Database σ} {s s' : System σ} {i : Nat} {l : Ledger} {movers : List Mover} {t : Terminal}
    {panicked : Bool} (ht : s.terminals[i]? = some t) (h : Accounted t (s.stages i) l)
    (hdeparting : l.Departing panicked t.last t.phase) (hrun : s.runSchedule db movers = some s') :
    ∃ t', s'.terminals[i]? = some t' ∧
      (l.recordAll (s.history db i movers)).Departing (panicked || s.panics db i movers)
        t'.last t'.phase := by
  induction movers generalizing s l t panicked with
  | nil =>
      cases hrun
      refine ⟨t, ht, ?_⟩
      rw [panics, Bool.or_false]
      exact hdeparting
  | cons mover movers ih =>
      obtain ⟨next, hmove, hrest⟩ := Option.bind_eq_some_iff.mp hrun
      obtain ⟨t', ht', hvisit⟩ := visit_of_move hmove ht
      simp only [history, panics, hmove, ht', Option.any_some, Ledger.recordAll_append,
        ← Bool.or_assoc]
      exact ih ht' (h.visit hvisit) (h.departing_visit hdeparting hvisit) hrest

/-- A worker that refuses tasks runs none along any schedule. -/
theorem rounds_of_sealed
    {db : Database σ} {s s' : System σ} {i : Nat} {movers : List Mover} {t : Terminal}
    (ht : s.terminals[i]? = some t) (hsealed : t.phase.isSealed = true)
    (hrun : s.runSchedule db movers = some s') :
    (s.history db i movers).filterMap Deed.round? = [] := by
  induction movers generalizing s t with
  | nil => rfl
  | cons mover movers ih =>
      obtain ⟨next, hmove, hrest⟩ := Option.bind_eq_some_iff.mp hrun
      obtain ⟨t', ht', hvisit⟩ := visit_of_move hmove ht
      obtain ⟨hnext, hnone⟩ := hvisit.sealed hsealed
      simp only [history, hmove, List.filterMap_append, hnone, List.nil_append]
      exact ih ht' hnext hrest

/--
What the last result says about work that never runs.  A wait returns after the worker has stopped
to take tasks, and the task of a call that had returned before the wait began has not run.  Then it
never runs.  The last result is that the terminal has shut down if some task came too late, else
that the worker was lost if it was, and else what the completed tasks add up to; only that may be
other than an error, and then the task was sent behind the request to leave.
-/
theorem last_of_neglected
    {db : Database σ} {s₀ s₁ s₂ : System σ} {i j : Nat} {before during : List Mover} {t : Terminal}
    {task : Task} (fresh : s₀.FreshAt i) (hbefore : s₀.runSchedule db before = some s₁)
    (hwait : WaitReturns db s₁ i j during s₂)
    (hhandled : s₀.HandledAlong db i (before ++ waitMoves j during))
    (ht : s₂.terminals[i]? = some t) (hclosed : t.closed = true)
    (hneglected : (s₀.ledger db i before).Neglected
      (s₀.ledger db i (before ++ waitMoves j during)) task) :
    let run := before ++ waitMoves j during
    let l := s₀.ledger db i run
    (∀ after s, s₂.runSchedule db after = some s →
      (s₀.ledger db i (run ++ after)).rounds = l.rounds) ∧
    t.last = l.farewell (s₀.panics db i run) ∧
    (t.last.code = .error ↔
      l.Refused ∨ s₀.panics db i run = true ∨ l.verdict.code = .error) ∧
    (¬ l.Refused → s₀.panics db i run = false →
      ∃ behind, l.sent = l.tasks ++ .shutdown :: behind ∧ task ∈ behind) := by
  intro run l
  have hrun : s₀.runSchedule db run = some s₂ := by
    rw [runSchedule_append, hbefore]
    exact hwait.returns
  obtain ⟨⟨t₀, ht₀, hfresh⟩, hstages⟩ := fresh
  have hstart : Accounted t₀ (s₀.stages i) {} := by
    rw [hstages]
    exact hfresh.accounted
  have hdeparting : ({} : Ledger).Departing false t₀.last t₀.phase := by
    obtain ⟨name, connection, handles, rfl⟩ := hfresh
    rfl
  obtain ⟨u, hu, haccounted, -⟩ := accounted_run ht₀ hstart hrun
  obtain ⟨v, hv, hdeparted⟩ := departing_run ht₀ hstart hdeparting hrun
  obtain rfl : t = u := Option.some.inj (ht.symm.trans hu)
  obtain rfl : t = v := Option.some.inj (ht.symm.trans hv)
  have hsealed : t.phase.isSealed = true := haccounted.orderly.closed_iff.mp hclosed
  obtain ⟨hlast, hretired⟩ :
      t.last = l.farewell (s₀.panics db i run) ∧ (s₀.panics db i run = false → l.Retired) := by
    rw [Bool.false_or, Ledger.departing_iff_of_isSealed hsealed] at hdeparted
    exact hdeparted
  refine ⟨?_, hlast, ?_, ?_⟩
  · intro after s hafter
    obtain ⟨-, -, -, hrounds⟩ := accounted_run ht haccounted hafter
    rw [rounds_of_sealed ht hsealed hafter, List.append_nil] at hrounds
    rw [ledger_append hrun]
    exact hrounds
  · rw [hlast]
    exact l.code_farewell _
  · intro hrefused hpanics
    have hsplit : l = (s₀.ledger db i before).recordAll (s₁.history db i (waitMoves j during)) :=
      ledger_append hbefore i _
    obtain ⟨hne, hrejected | hsent⟩ := hneglected
    · refine absurd ?_ hrefused
      rw [hsplit]
      exact Ledger.Refused.recordAll ⟨task, hrejected, hne⟩ _
    · have hdeserted := (not_deserted_of_wait ⟨t₀, ht₀⟩ hbefore hwait ht hhandled).2
      have hmore : (s₀.ledger db i before).sent <+: l.sent := by
        rw [hsplit]
        exact Ledger.sent_prefix_recordAll _ _
      exact haccounted.behind_shutdown (hretired hpanics) hdeserted hmore hne hsent

/-- The database does not survive the first query; a second caller is about to send another. -/
def lostWorker : System Memory where
  world := { script := { responses := [("boom", .crash "boom")] }, sessions := [⟨[], none⟩] }
  terminals := [{ name := "t", connection := 0, handles := 2 }]
  callers := [{ todo := [(0, .execute "boom"), (0, .store "r"), (0, .wait)] },
    { todo := [(0, .execute "q")] }]

/-- The first caller sends its two tasks, the second one only counts its own. -/
def countedOnly : List Mover :=
  List.replicate 7 (Mover.caller 0) ++ List.replicate 2 (Mover.caller 1)

/-- The worker is lost and leaves, and the second caller comes too late. -/
def tooLate : List Mover :=
  List.replicate 9 (Mover.worker 0) ++ List.replicate 3 (Mover.caller 1)

/-- Where a schedule leads from there. -/
def lostWorkerAfter (movers : List Mover) : System Memory :=
  (lostWorker.runSchedule Memory.database movers).getD lostWorker

theorem last_of_neglected_lostWorker :
    let run := countedOnly ++ waitMoves 0 tooLate
    let l := lostWorker.ledger Memory.database 0 run
    (lostWorker.ledger Memory.database 0 countedOnly).Neglected l (.fetch "r") ∧
      l.sent = [Task.execute "boom", Task.fetch "r"] ∧ l.rejected = [Task.execute "q"] ∧
      ∃ t, (lostWorkerAfter run).terminals[0]? = some t ∧ t.closed = true ∧
        t.last.code = .error := by
  have fresh : lostWorker.FreshAt 0 := ⟨⟨_, rfl, _, _, _, rfl⟩, rfl⟩
  have hcounted : lostWorker.runSchedule Memory.database countedOnly =
      some (lostWorkerAfter countedOnly) := by cbv
  have hwait : WaitReturns Memory.database (lostWorkerAfter countedOnly) 0 0 tooLate
      (lostWorkerAfter (countedOnly ++ waitMoves 0 tooLate)) :=
    ⟨⟨_, _, by rfl, by rfl, by rfl⟩, by decide, by cbv⟩
  have hneglected : (lostWorker.ledger Memory.database 0 countedOnly).Neglected
      (lostWorker.ledger Memory.database 0 (countedOnly ++ waitMoves 0 tooLate)) (.fetch "r") := by
    decide +kernel
  have hlast := last_of_neglected fresh hcounted hwait (by decide +kernel) (by rfl) (by rfl)
    hneglected
  refine ⟨hneglected, by decide +kernel, by decide +kernel, _, by rfl, by rfl, ?_⟩
  exact hlast.2.2.1.mpr (Or.inl (by decide +kernel))

/-- One caller sends a query, the request to leave and a second query, and waits. -/
def retiring : System Memory where
  world := { sessions := [⟨[], none⟩] }
  terminals := [{ name := "t", connection := 0 }]
  callers := [{ todo := [(0, .execute "h"), (0, .close), (0, .execute "q"), (0, .wait)] }]

/-- Everything is sent before the worker moves. -/
def sentAll : List Mover :=
  List.replicate 9 (.caller 0)

/-- The worker runs the first query and leaves. -/
def leavingFirst : List Mover :=
  List.replicate 13 (.worker 0)

/-- Where a schedule leads from there. -/
def retiringAfter (movers : List Mover) : System Memory :=
  (retiring.runSchedule Memory.database movers).getD retiring

/-- The second query never runs, and the last result is that all went well. -/
theorem success_behind_shutdown :
    retiring.FreshAt 0 ∧
      retiring.runSchedule Memory.database sentAll = some (retiringAfter sentAll) ∧
      WaitReturns Memory.database (retiringAfter sentAll) 0 0 leavingFirst
        (retiringAfter (sentAll ++ waitMoves 0 leavingFirst)) ∧
      retiring.HandledAlong Memory.database 0 (sentAll ++ waitMoves 0 leavingFirst) ∧
      (retiring.ledger Memory.database 0 sentAll).Neglected
        (retiring.ledger Memory.database 0 (sentAll ++ waitMoves 0 leavingFirst))
        (Task.execute "q") ∧
      ∃ t, (retiringAfter (sentAll ++ waitMoves 0 leavingFirst)).terminals[0]? = some t ∧
        t.closed = true ∧ t.last.code = ReturnCode.success := by
  refine ⟨⟨⟨_, rfl, _, _, _, rfl⟩, rfl⟩, by cbv, ?_, by decide +kernel, by decide +kernel, ?_⟩
  · exact ⟨⟨_, _, by rfl, by rfl, by rfl⟩, by decide, by cbv⟩
  · exact ⟨_, by rfl, by rfl, by rfl⟩

end System

end Terminal
end CaseSuite
