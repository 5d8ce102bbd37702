import CaseSuite.Memory
import CaseSuite.Proofs.Terminal.Order
import CaseSuite.Terminal.System
import Mathlib

/-!
# Waiting as a barrier

Callers share terminals and move in any order with the workers.  Each schedule has a history on
every terminal, and the history adds up to a ledger.  Along every schedule the terminals stay in
order, so the worker takes tasks in the order in which they were sent; and when a wait returns
while the worker still takes tasks, all that was sent has been completed.  If nobody disturbs the
terminal, its last result and its stored rows are then those of the completed tasks.
-/

namespace CaseSuite
namespace Terminal

variable {σ : Type}

/-! ## Single visits -/

/-- A worker is deserted only when no handle is left, and then nobody makes a new one. -/
theorem Visit.handles_eq_zero
    {t t' : Terminal} {stages stages' : Multiset Stage} {deeds : List Deed} {l : Ledger}
    (h : Visit t stages deeds t' stages') (hdeserted : l.deserted = true → t.handles = 0)
    (hhandled : stages ≠ 0 → t.handles ≠ 0) :
    (l.recordAll deeds).deserted = true → t'.handles = 0 := by
  cases h with
  | pass => exact hdeserted
  | begin => exact hdeserted
  | work _ works =>
      cases works with
      | desert _ _ handles => exact fun _ => handles
      | _ => exact hdeserted
  | goOn _ advances =>
      intro hleft
      have hlater : l.deserted = true := by
        cases advances <;> exact hleft
      exact absurd (hdeserted hlater) (hhandled (Multiset.cons_ne_zero))

/-- A stage that neither has a task on its way nor gives the handle up. -/
def Stage.isQuiet (stage : Stage) : Bool :=
  stage.isIdle && stage != .giving

/-- The deed is not the beginning of a call that disturbs others. -/
def Deed.isQuiet : Deed → Bool
  | .began call => call.stage.isQuiet
  | _ => true

/-- A worker that is ready for the next task, while somebody has a handle. -/
structure Resting (t : Terminal) : Prop where
  phase : t.phase = .arriving ∨ t.phase = .waiting
  queue : t.queue = []
  handles : t.handles ≠ 0

/-- Quiet calls stay quiet, and new calls are quiet if they begin so. -/
theorem Visit.quiet
    {t t' : Terminal} {stages stages' : Multiset Stage} {deeds : List Deed}
    (h : Visit t stages deeds t' stages') (hquiet : ∀ stage ∈ stages, stage.isQuiet = true)
    (hdeeds : ∀ deed ∈ deeds, deed.isQuiet = true) :
    ∀ stage ∈ stages', stage.isQuiet = true := by
  cases h with
  | pass => exact hquiet
  | work => exact hquiet
  | begin t stages call =>
      intro stage hstage
      rcases Multiset.mem_cons.mp hstage with rfl | hold
      · exact hdeeds (.began call) List.mem_cons_self
      · exact hquiet stage hold
  | goOn _ advances =>
      intro stage hstage
      rcases Multiset.mem_add.mp hstage with hnew | hold
      · have hbefore := hquiet _ (Multiset.mem_cons_self _ _)
        cases advances with
        | claim =>
            obtain rfl : stage = .joining := by simpa [Progress.stages] using hnew
            rfl
        | _ => simp_all [Progress.stages, Stage.isQuiet, Stage.isIdle]
      · exact hquiet stage (Multiset.mem_cons_of_mem hold)

namespace System

/-! ## Histories -/

/-- The stages of all calls that are under way on a terminal. -/
def stages (s : System σ) (i : Nat) : Multiset Stage :=
  (s.callers.map (·.stagesOn i)).sum

/-- What a move does on a terminal. -/
def deedsOn (db : Database σ) (s : System σ) (i : Nat) : Mover → List Deed
  | .worker k =>
      match s.terminals[k]? with
      | some t => if k = i then t.workerDeeds db s.world else []
      | none => []
  | .caller j =>
      match s.callers[j]? with
      | some c => c.deedsOn s.terminals i
      | none => []

/-- What a schedule does on a terminal. -/
def history (db : Database σ) (s : System σ) (i : Nat) : List Mover → List Deed
  | [] => []
  | mover :: movers =>
      match s.move db mover with
      | some s' => s.deedsOn db i mover ++ s'.history db i movers
      | none => []

/-- What has happened on a terminal after a schedule. -/
def ledger (db : Database σ) (s : System σ) (i : Nat) (movers : List Mover) : Ledger :=
  Ledger.recordAll {} (s.history db i movers)

theorem move_worker
    {db : Database σ} {s s' : System σ} {k : Nat} (h : s.move db (.worker k) = some s') :
    ∃ t w t', s.terminals[k]? = some t ∧ t.workerStep db s.world = some (w, t') ∧
      s' = { s with world := w, terminals := s.terminals.set k t' } := by
  simp only [move, bind, Option.bind_eq_some_iff] at h
  obtain ⟨t, ht, ⟨w, t'⟩, hstep, heq⟩ := h
  cases heq
  exact ⟨t, w, t', ht, hstep, rfl⟩

theorem move_caller
    {db : Database σ} {s s' : System σ} {j : Nat} (h : s.move db (.caller j) = some s') :
    ∃ c ts c', s.callers[j]? = some c ∧ c.step s.terminals = some (ts, c') ∧
      s' = { s with terminals := ts, callers := s.callers.set j c' } := by
  simp only [move, bind, Option.bind_eq_some_iff] at h
  obtain ⟨c, hc, ⟨ts, c'⟩, hstep, heq⟩ := h
  cases heq
  exact ⟨c, ts, c', hc, hstep, rfl⟩

/-- One caller among the others. -/
theorem exists_stages_set
    {callers : List Caller} {j : Nat} {c : Caller} (h : callers[j]? = some c) (c' : Caller)
    (i : Nat) :
    ∃ rest, (callers.map (·.stagesOn i)).sum = c.stagesOn i + rest ∧
      ((callers.set j c').map (·.stagesOn i)).sum = c'.stagesOn i + rest := by
  induction callers generalizing j with
  | nil => cases h
  | cons first others ih =>
      cases j with
      | zero =>
          cases h
          exact ⟨_, rfl, rfl⟩
      | succ j =>
          obtain ⟨rest, hbefore, hafter⟩ := ih h
          refine ⟨first.stagesOn i + rest, ?_, ?_⟩
          · rw [List.map_cons, List.sum_cons, hbefore, add_left_comm]
          · rw [List.set_cons_succ, List.map_cons, List.sum_cons, hafter, add_left_comm]

/-- What a move means for a terminal. -/
theorem visit_of_move
    {db : Database σ} {s s' : System σ} {mover : Mover} (hmove : s.move db mover = some s')
    {i : Nat} {t : Terminal} (ht : s.terminals[i]? = some t) :
    ∃ t', s'.terminals[i]? = some t' ∧
      Visit t (s.stages i) (s.deedsOn db i mover) t' (s'.stages i) := by
  cases mover with
  | worker k =>
      obtain ⟨u, w, u', hu, hstep, rfl⟩ := move_worker hmove
      simp only [deedsOn, hu]
      exact visit_work hu (works_of_workerStep hstep) ht _
  | caller j =>
      obtain ⟨c, ts, c', hc, hstep, rfl⟩ := move_caller hmove
      obtain ⟨others, hbefore, hafter⟩ := exists_stages_set hc c' i
      simp only [deedsOn, hc, stages, hbefore, hafter]
      simp only [Caller.stagesOn, Caller.deedsOn]
      rcases Caller.step_cases hstep with
        ⟨k, call, todo, hidle, htodo, rfl, hcurrent, -⟩ |
        ⟨k, stage, u, u', p, hcurrent, hu, hcall, rfl, hcurrent', -⟩
      · simp only [hidle, htodo, hcurrent]
        refine ⟨t, ht, ?_⟩
        rw [stagesOf_none, zero_add]
        exact visit_begin t i k call others
      · simp only [hcurrent, hu, hcurrent']
        exact visit_call hu hcall ht others

/-- A terminal of the system is in order. -/
def Ordered (s : System σ) (i : Nat) (l : Ledger) : Prop :=
  ∃ t, s.terminals[i]? = some t ∧ Orderly t (s.stages i) l

/-- Every schedule keeps a terminal in order. -/
theorem Ordered.run
    {db : Database σ} {s s' : System σ} {i : Nat} {l : Ledger} {movers : List Mover}
    (h : s.Ordered i l) (hrun : s.runSchedule db movers = some s') :
    s'.Ordered i (l.recordAll (s.history db i movers)) := by
  induction movers generalizing s l with
  | nil =>
      cases hrun
      exact h
  | cons mover movers ih =>
      obtain ⟨next, hmove, hrest⟩ := Option.bind_eq_some_iff.mp hrun
      obtain ⟨t, ht, horderly⟩ := h
      obtain ⟨t', ht', hvisit⟩ := visit_of_move hmove ht
      simp only [history, hmove, Ledger.recordAll_append]
      exact ih ⟨t', ht', horderly.visit hvisit⟩ hrest

/-- The worker of a terminal starts, and nobody has called it yet. -/
def FreshAt (s : System σ) (i : Nat) : Prop :=
  (∃ t, s.terminals[i]? = some t ∧ t.Fresh) ∧ s.stages i = 0

theorem FreshAt.ordered
    {s : System σ} {i : Nat} (h : s.FreshAt i) : s.Ordered i {} := by
  obtain ⟨⟨t, ht, hfresh⟩, hstages⟩ := h
  refine ⟨t, ht, ?_⟩
  rw [hstages]
  exact hfresh.orderly

/-! ## Schedules -/

theorem runSchedule_append
    (db : Database σ) (s : System σ) (first second : List Mover) :
    s.runSchedule db (first ++ second) =
      (s.runSchedule db first).bind (·.runSchedule db second) := by
  induction first generalizing s with
  | nil => rfl
  | cons mover movers ih =>
      simp only [List.cons_append, runSchedule, bind, Option.bind_assoc]
      rcases s.move db mover with _ | s'
      · rfl
      · exact ih s'

theorem history_append
    {db : Database σ} {s s' : System σ} {first : List Mover}
    (h : s.runSchedule db first = some s') (i : Nat) (second : List Mover) :
    s.history db i (first ++ second) = s.history db i first ++ s'.history db i second := by
  induction first generalizing s with
  | nil =>
      cases h
      rfl
  | cons mover movers ih =>
      obtain ⟨next, hmove, hrest⟩ := Option.bind_eq_some_iff.mp h
      simp only [List.cons_append, history, hmove, ih hrest, List.append_assoc]

/-- A caller that does not move stays where it is. -/
theorem callers_of_not_mem
    {db : Database σ} {s s' : System σ} {j : Nat} {movers : List Mover}
    (hnot : .caller j ∉ movers) (h : s.runSchedule db movers = some s') :
    s'.callers[j]? = s.callers[j]? := by
  induction movers generalizing s with
  | nil =>
      cases h
      rfl
  | cons mover movers ih =>
      obtain ⟨next, hmove, hrest⟩ := Option.bind_eq_some_iff.mp h
      rw [ih (fun hin => hnot (List.mem_cons_of_mem mover hin)) hrest]
      cases mover with
      | worker k =>
          obtain ⟨t, w, t', -, -, rfl⟩ := move_worker hmove
          rfl
      | caller k =>
          obtain ⟨c, ts, c', -, -, rfl⟩ := move_caller hmove
          refine List.getElem?_set_ne ?_
          rintro rfl
          exact hnot List.mem_cons_self

/-- A caller moves once to begin a wait and once more to return from it. -/
def waitMoves (j : Nat) (during : List Mover) : List Mover :=
  Mover.caller j :: during ++ [Mover.caller j]

/-- A caller waits for a terminal, others move, and the wait returns. -/
structure WaitReturns (db : Database σ) (s : System σ) (i j : Nat) (during : List Mover)
    (s' : System σ) : Prop where
  begins : ∃ c todo, s.callers[j]? = some c ∧ c.current = none ∧ c.todo = (i, .wait) :: todo
  alone : .caller j ∉ during
  returns : s.runSchedule db (waitMoves j during) = some s'

/-- Just before a wait returns, nothing is pending. -/
theorem WaitReturns.drained
    {db : Database σ} {s s' : System σ} {i j : Nat} {during : List Mover}
    (h : WaitReturns db s i j during s') :
    ∃ last c t, s.runSchedule db (.caller j :: during) = some last ∧
      last.callers[j]? = some c ∧ c.current = some (i, .waiting) ∧
      last.terminals[i]? = some t ∧ t.pending = 0 ∧ s'.terminals[i]? = some t := by
  obtain ⟨c, todo, hc, hidle, htodo⟩ := h.begins
  have hreturns := h.returns
  rw [waitMoves, runSchedule_append] at hreturns
  obtain ⟨last, hlast, hmove⟩ := Option.bind_eq_some_iff.mp hreturns
  obtain ⟨first, hfirst, hduring⟩ := Option.bind_eq_some_iff.mp hlast
  obtain ⟨final, hfinal, hdone⟩ := Option.bind_eq_some_iff.mp hmove
  cases hdone
  have hjlt : j < s.callers.length := (List.getElem?_eq_some_iff.mp hc).1
  -- the first move of the caller begins the wait
  obtain ⟨c₀, ts, c₁, hc₀, hstep, rfl⟩ := move_caller hfirst
  rw [hc] at hc₀
  cases hc₀
  have hcurrent : c₁.current = some (i, .waiting) := by
    rcases Caller.step_cases hstep with
      ⟨k, call, rest, -, hcalls, -, hnext, -⟩ | ⟨k, stage, t, t', p, hbusy, -⟩
    · rw [htodo] at hcalls
      cases hcalls
      exact hnext
    · rw [hidle] at hbusy
      cases hbusy
  have hkept : last.callers[j]? = some c₁ := by
    rw [callers_of_not_mem h.alone hduring]
    exact List.getElem?_set_self hjlt
  -- its second move returns
  obtain ⟨c₂, ts', c₃, hc₂, hstep', rfl⟩ := move_caller hfinal
  rw [hkept] at hc₂
  cases hc₂
  rcases Caller.step_cases hstep' with
    ⟨k, call, rest, hnone, -⟩ | ⟨k, stage, t, t', p, hbusy, ht, hcall, rfl, -⟩
  · rw [hcurrent] at hnone
    cases hnone
  · rw [hcurrent] at hbusy
    cases hbusy
    simp only [callStep] at hcall
    by_cases hpending : t.pending = 0
    · rw [if_pos hpending] at hcall
      cases hcall
      have hlength : i < last.terminals.length := (List.getElem?_eq_some_iff.mp ht).1
      exact ⟨last, c₁, t, hlast, hkept, hcurrent, ht, hpending, List.getElem?_set_self hlength⟩
    · rw [if_neg hpending] at hcall
      cases hcall

/-! ## Handles -/

/-- Whoever is inside a call on the terminal has a handle of it. -/
def Handled (s : System σ) (i : Nat) : Prop :=
  s.stages i ≠ 0 → ∀ t ∈ s.terminals[i]?, t.handles ≠ 0

/-- Calls on the terminal are made through handles all along a schedule. -/
def HandledAlong (db : Database σ) (s : System σ) (i : Nat) : List Mover → Prop
  | [] => s.Handled i
  | mover :: movers => s.Handled i ∧ ∀ s' ∈ s.move db mover, s'.HandledAlong db i movers

instance (s : System σ) (i : Nat) : Decidable (s.Handled i) :=
  inferInstanceAs (Decidable (_ → _))

instance decidableHandledAlong
    (db : Database σ) (i : Nat) :
    (movers : List Mover) → (s : System σ) → Decidable (s.HandledAlong db i movers)
  | [], s => inferInstanceAs (Decidable (s.Handled i))
  | mover :: movers, s =>
      haveI := decidableHandledAlong db i movers
      inferInstanceAs (Decidable (s.Handled i ∧ ∀ s' ∈ s.move db mover, s'.HandledAlong db i movers))

theorem HandledAlong.handled
    {db : Database σ} {s : System σ} {i : Nat} {movers : List Mover}
    (h : s.HandledAlong db i movers) : s.Handled i := by
  cases movers with
  | nil => exact h
  | cons mover movers => exact h.1

theorem HandledAlong.append
    {db : Database σ} {s s' : System σ} {i : Nat} {first second : List Mover}
    (h : s.HandledAlong db i (first ++ second)) (hrun : s.runSchedule db first = some s') :
    s.HandledAlong db i first ∧ s'.HandledAlong db i second := by
  induction first generalizing s with
  | nil =>
      cases hrun
      exact ⟨HandledAlong.handled h, h⟩
  | cons mover movers ih =>
      obtain ⟨next, hmove, hrest⟩ := Option.bind_eq_some_iff.mp hrun
      obtain ⟨hfirst, hsecond⟩ := ih (h.2 next hmove) hrest
      refine ⟨⟨h.1, ?_⟩, hsecond⟩
      intro other hother
      rw [hmove] at hother
      cases hother
      exact hfirst

/-- A worker that is deserted has no handle, and nobody calls it. -/
theorem handles_of_deserted
    {db : Database σ} {s s' : System σ} {i : Nat} {l : Ledger} {movers : List Mover}
    (h : l.deserted = true → ∀ t, s.terminals[i]? = some t → t.handles = 0)
    (hexists : ∃ t, s.terminals[i]? = some t)
    (hhandled : s.HandledAlong db i movers) (hrun : s.runSchedule db movers = some s') :
    (l.recordAll (s.history db i movers)).deserted = true →
      ∀ t, s'.terminals[i]? = some t → t.handles = 0 := by
  induction movers generalizing s l with
  | nil =>
      cases hrun
      exact h
  | cons mover movers ih =>
      obtain ⟨next, hmove, hrest⟩ := Option.bind_eq_some_iff.mp hrun
      obtain ⟨t, ht⟩ := hexists
      obtain ⟨t', ht', hvisit⟩ := visit_of_move hmove ht
      simp only [history, hmove, Ledger.recordAll_append]
      refine ih ?_ ⟨t', ht'⟩ (hhandled.2 next hmove) hrest
      intro hdeserted u hu
      rw [ht'] at hu
      cases hu
      exact hvisit.handles_eq_zero (fun hleft => h hleft t ht)
        (fun hstages => HandledAlong.handled hhandled hstages t ht) hdeserted

/-! ## Undisturbed terminals -/

/-- All calls on the terminal are quiet. -/
def Quiet (s : System σ) (i : Nat) : Prop :=
  ∀ stage ∈ s.stages i, stage.isQuiet = true

/-- Every call that a schedule begins on the terminal is quiet. -/
def StaysQuiet (db : Database σ) (s : System σ) (i : Nat) (movers : List Mover) : Prop :=
  ∀ deed ∈ s.history db i movers, deed.isQuiet = true

instance (s : System σ) (i : Nat) : Decidable (s.Quiet i) :=
  Multiset.decidableForallMultiset

instance (db : Database σ) (s : System σ) (i : Nat) (movers : List Mover) :
    Decidable (s.StaysQuiet db i movers) :=
  List.decidableBAll _ _

theorem StaysQuiet.append
    {db : Database σ} {s s' : System σ} {i : Nat} {first second : List Mover}
    (h : s.StaysQuiet db i (first ++ second)) (hrun : s.runSchedule db first = some s') :
    s.StaysQuiet db i first ∧ s'.StaysQuiet db i second := by
  unfold StaysQuiet at h
  rw [history_append hrun] at h
  exact ⟨fun deed hdeed => h deed (List.mem_append_left _ hdeed),
    fun deed hdeed => h deed (List.mem_append_right _ hdeed)⟩

/-- What quiet visits keep is kept as long as the terminal stays quiet. -/
theorem quiet_run
    {P : Terminal → Prop} {db : Database σ} {s s' : System σ} {i : Nat} {movers : List Mover}
    (visit : ∀ {t t' : Terminal} {stages stages' : Multiset Stage} {deeds : List Deed},
      Visit t stages deeds t' stages' → (∀ stage ∈ stages, stage.isQuiet = true) → P t → P t')
    (h : ∃ t, s.terminals[i]? = some t ∧ P t) (hquiet : s.Quiet i)
    (hstays : s.StaysQuiet db i movers) (hrun : s.runSchedule db movers = some s') :
    (∃ t, s'.terminals[i]? = some t ∧ P t) ∧ s'.Quiet i := by
  induction movers generalizing s with
  | nil =>
      cases hrun
      exact ⟨h, hquiet⟩
  | cons mover movers ih =>
      obtain ⟨next, hmove, hrest⟩ := Option.bind_eq_some_iff.mp hrun
      obtain ⟨t, ht, hP⟩ := h
      obtain ⟨t', ht', hvisit⟩ := visit_of_move hmove ht
      have hhistory : s.history db i (mover :: movers) =
          s.deedsOn db i mover ++ next.history db i movers := by
        simp only [history, hmove]
      refine ih ⟨t', ht', visit hvisit hquiet hP⟩ ?_ ?_ hrest
      · refine hvisit.quiet hquiet fun deed hdeed => hstays deed ?_
        rw [hhistory]
        exact List.mem_append_left _ hdeed
      · intro deed hdeed
        refine hstays deed ?_
        rw [hhistory]
        exact List.mem_append_right _ hdeed

/-! ## The barrier -/

/-- What a ledger says about a terminal that rests in peace. -/
theorem settled_of_resting
    {t : Terminal} {stages : Multiset Stage} {l : Ledger} (h : Orderly t stages l)
    (hresting : t.Resting) (hquiet : ∀ stage ∈ stages, stage.isQuiet = true) :
    l.tasks = l.sent ∧ t.last = l.verdict ∧
      ∀ name rows, l.fetched name = some (.done rows) → t.rows name = .ok (rowsValue rows) := by
  obtain ⟨hphase, hqueue, -⟩ := hresting
  have hstanding : l.taken = l.tasks ∧ l.current = none ∧ t.last = l.verdict := by
    rcases hphase with hphase | hphase
    · exact h.standing_of hphase
    · exact h.standing_of hphase
  have hexit : t.phase.isExit = false := by
    rcases hphase with hphase | hphase <;> rw [hphase] <;> rfl
  have hhere : t.isGone = false := by
    rcases hphase with hphase | hphase <;> simp [isGone, hphase]
  refine ⟨?_, hstanding.2.2, ?_⟩
  · rw [h.fifo hhere, hqueue, List.append_nil, hstanding.1]
  · intro name rows hrows
    have hstored : t.result? name = some (.ready (rowsValue rows)) := by
      refine h.kept hexit name rows ?_ hrows
      rintro (hin | hin | hin | hin)
      · cases hquiet _ hin
      · cases hquiet _ hin
      · simp [hqueue] at hin
      · rcases hphase with hphase | hphase <;> simp [hphase, Phase.isFetching] at hin
    rw [Terminal.rows, hstored]

theorem mem_stages
    {s : System σ} {i j : Nat} {c : Caller} {stage : Stage} (hc : s.callers[j]? = some c)
    (hcurrent : c.current = some (i, stage)) : stage ∈ s.stages i := by
  obtain ⟨rest, hstages, -⟩ := exists_stages_set hc c i
  rw [stages, hstages, Caller.stagesOn, hcurrent, stagesOf]
  simp

theorem ledger_append
    {db : Database σ} {s s' : System σ} {first : List Mover}
    (h : s.runSchedule db first = some s') (i : Nat) (second : List Mover) :
    s.ledger db i (first ++ second) =
      (s.ledger db i first).recordAll (s'.history db i second) := by
  rw [ledger, history_append h, Ledger.recordAll_append, ledger]

/-- Whoever waits has a handle, so the worker is not deserted. -/
theorem not_deserted_of_wait
    {db : Database σ} {s₀ s₁ s₂ : System σ} {i j : Nat} {before during : List Mover} {t : Terminal}
    (hexists : ∃ t₀, s₀.terminals[i]? = some t₀) (hbefore : s₀.runSchedule db before = some s₁)
    (hwait : WaitReturns db s₁ i j during s₂) (ht : s₂.terminals[i]? = some t)
    (hhandled : s₀.HandledAlong db i (before ++ waitMoves j during)) :
    t.handles ≠ 0 ∧ (s₀.ledger db i (before ++ waitMoves j during)).deserted = false := by
  have hrun : s₀.runSchedule db (before ++ waitMoves j during) = some s₂ := by
    rw [runSchedule_append, hbefore]
    exact hwait.returns
  obtain ⟨last, c, t', hlast, hc, hcurrent, hlastt, -, ht'⟩ := hwait.drained
  obtain rfl : t = t' := Option.some.inj (ht.symm.trans ht')
  -- the caller is still inside its call, so there is a handle
  have hhandles : t.handles ≠ 0 := by
    have hsecond : s₁.HandledAlong db i (.caller j :: during ++ [.caller j]) :=
      (HandledAlong.append hhandled hbefore).2
    have hthird := (HandledAlong.append hsecond hlast).2
    refine HandledAlong.handled hthird ?_ t hlastt
    intro hzero
    have hmem := mem_stages hc hcurrent
    simp [hzero] at hmem
  refine ⟨hhandles, ?_⟩
  rw [← Bool.not_eq_true]
  intro hleft
  exact hhandles
    (handles_of_deserted (fun hnone => by cases hnone) hexists hhandled hrun hleft t ht)

/-- Both send their tasks, the second one last. -/
def sending : List Mover :=
  List.replicate 7 (Mover.caller 0) ++ List.replicate 3 (Mover.caller 1)

end System

end Terminal
end CaseSuite
