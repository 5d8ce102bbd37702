import CaseSuite.Terminal.Call
import CaseSuite.Terminal.Worker
import Mathlib.Data.Multiset.AddSub

/-!
# The ledger of a terminal

What a terminal shows its callers is a count, a last result and some stored rows.  What happened on
it is more: which tasks were sent, which of them the worker took, and what the database answered
each time.  A ledger keeps that history.  `Works` and `Advances` list what a step of the worker and
a step of a caller can do, and `Visit` is a step of anybody as one terminal sees it.
-/

namespace CaseSuite
namespace Terminal

variable {σ : Type}

/-! ## What happens on a terminal -/

/-- A task that reached the database, with the answer it got there. -/
inductive Round where
  | execute (query : String) (reply : Reply Unit)
  | fetch (name : String) (reply : Reply (List Row))

namespace Round

def task : Round → Task
  | execute query _ => .execute query
  | fetch name _ => .fetch name

/-- The last result after a round: a query sets it, a fetch only if it fails. -/
def verdict (v : Verdict) : Round → Verdict
  | execute _ (.done _) => .success
  | execute _ (.refused d) => .ofDiagnostic d
  | fetch _ (.done _) => v
  | fetch _ (.refused d) => .ofDiagnostic d
  | execute _ (.crashed _) | fetch _ (.crashed _) => .crashed

/-- What a round fetched for a name. -/
def fetched? (name : String) : Round → Option (Reply (List Row))
  | fetch other reply => if other = name then some reply else none
  | execute _ _ => none

end Round

/-- One thing that happens on a terminal. -/
inductive Deed where
  | began (call : Call)
  | sent (task : Task)
  /-- The task came too late. -/
  | rejected (task : Task)
  | took (task : Task)
  /-- The worker found the queue empty and no handle left. -/
  | deserted
  | ran (round : Round)
  | finished

/-- What has happened on a terminal. -/
structure Ledger where
  sent : List Task := []
  rejected : List Task := []
  taken : List Task := []
  /-- The round that the worker has not finished yet. -/
  current : Option Round := none
  completed : List Round := []
  deserted : Bool := false

namespace Ledger

def record (l : Ledger) : Deed → Ledger
  | .began _ => l
  | .sent task => { l with sent := l.sent ++ [task] }
  | .rejected task => { l with rejected := l.rejected ++ [task] }
  | .took task => { l with taken := l.taken ++ [task] }
  | .deserted => { l with deserted := true }
  | .ran round => { l with current := some round }
  | .finished => { l with current := none, completed := l.completed ++ l.current.toList }

def recordAll (l : Ledger) (deeds : List Deed) : Ledger :=
  deeds.foldl record l

@[simp] theorem recordAll_nil (l : Ledger) : l.recordAll [] = l :=
  rfl

@[simp] theorem recordAll_singleton (l : Ledger) (d : Deed) : l.recordAll [d] = l.record d :=
  rfl

theorem recordAll_append
    (l : Ledger) (ds es : List Deed) :
    l.recordAll (ds ++ es) = (l.recordAll ds).recordAll es :=
  List.foldl_append

theorem sent_prefix_recordAll
    (l : Ledger) (deeds : List Deed) : l.sent <+: (l.recordAll deeds).sent := by
  induction deeds generalizing l with
  | nil => exact List.prefix_rfl
  | cons d deeds ih =>
      have hone : l.sent <+: (l.record d).sent := by
        cases d with
        | sent task => exact List.prefix_append _ _
        | _ => exact List.prefix_rfl
      exact hone.trans (ih (l.record d))

/-- The tasks that were completed, in order. -/
def tasks (l : Ledger) : List Task := l.completed.map Round.task

/-- The last result that the completed tasks add up to. -/
def verdict (l : Ledger) : Verdict := l.completed.foldl Round.verdict .success

/-- Every round so far. -/
def rounds (l : Ledger) : List Round := l.completed ++ l.current.toList

/-- What the last fetch for a name gave. -/
def fetched (l : Ledger) (name : String) : Option (Reply (List Row)) :=
  (l.rounds.filterMap (Round.fetched? name)).getLast?

/-- A round that is open counts for what it fetched. -/
theorem fetched_ran
    {l : Ledger} (hcurrent : l.current = none) (round : Round) (name : String) :
    (l.record (.ran round)).fetched name = (round.fetched? name).or (l.fetched name) := by
  have hrounds : l.rounds = l.completed := by simp [rounds, hcurrent]
  have hran : (l.record (.ran round)).rounds = l.completed ++ [round] := rfl
  rw [fetched, fetched, hran, hrounds, List.filterMap_append]
  rcases hfetched : round.fetched? name with _ | reply
  · simp [hfetched]
  · simp [hfetched]

theorem length_tasks (l : Ledger) : l.tasks.length = l.completed.length :=
  List.length_map _

end Ledger

/-- What the next step of the worker does. -/
def workerDeeds (db : Database σ) (w : σ) (t : Terminal) : List Deed :=
  match t.phase with
  | .waiting =>
      match t.queue with
      | task :: _ => [.took task]
      | [] => [.deserted]
  | .executing query => [.ran (.execute query (db.execute w t.connection query).1)]
  | .fetching name => [.ran (.fetch name (db.fetch w t.connection).1)]
  | .finishing => [.finished]
  | _ => []

/-- What the next step of a caller does. -/
def callDeeds (t : Terminal) : Stage → List Deed
  | .sending task => if t.isGone then [] else [.sent task]
  | .rejecting task => [.rejected task]
  | _ => []

/-! ## What a step can do -/

/-- The steps of a worker. -/
inductive Works (db : Database σ) : σ → Terminal → List Deed → σ → Terminal → Prop
  | arrive {w : σ} {t : Terminal} (h : t.phase = .arriving) :
      Works db w t [] w { t with status := .waiting, phase := .waiting }
  | take {w : σ} {t : Terminal} {task : Task} {rest : List Task} (h : t.phase = .waiting)
      (queue : t.queue = task :: rest) :
      Works db w t [.took task] w { t with queue := rest, phase := .starting task }
  | desert {w : σ} {t : Terminal} (h : t.phase = .waiting) (queue : t.queue = [])
      (handles : t.handles = 0) :
      Works db w t [.deserted] w { t with phase := .starting .shutdown }
  | shut {w : σ} {t : Terminal} (h : t.phase = .starting .shutdown) :
      Works db w t [] w { t with status := .shutDown, phase := .closing }
  | startExecute {w : σ} {t : Terminal} {query : String}
      (h : t.phase = .starting (.execute query)) :
      Works db w t [] w { t with status := .executing, phase := .clearing query }
  | startFetch {w : σ} {t : Terminal} {name : String} (h : t.phase = .starting (.fetch name)) :
      Works db w t [] w { t with status := .executing, phase := .fetching name }
  | clear {w : σ} {t : Terminal} {query : String} (h : t.phase = .clearing query) :
      Works db w t [] w { t with last := .success, phase := .executing query }
  | execute {w w' : σ} {t : Terminal} {query : String} {reply : Reply Unit}
      (h : t.phase = .executing query) (answer : db.execute w t.connection query = (reply, w')) :
      Works db w t [.ran (.execute query reply)] w' { t with phase := .afterExecute reply }
  | fetch {w w' : σ} {t : Terminal} {name : String} {reply : Reply (List Row)}
      (h : t.phase = .fetching name) (answer : db.fetch w t.connection = (reply, w')) :
      Works db w t [.ran (.fetch name reply)] w' { t with phase := .afterFetch name reply }
  | store {w : σ} {t : Terminal} {name : String} {rows : Value}
      (h : t.phase = .storing name rows) :
      Works db w t [] w { t.store name (.ready rows) with phase := .finishing }
  | report {w : σ} {t : Terminal} {d : Diagnostic} (h : t.phase = .reporting d) :
      Works db w t [] w { t with last := .ofDiagnostic d, phase := .finishing }
  | finish {w : σ} {t : Terminal} (h : t.phase = .finishing) :
      Works db w t [.finished] w { t.finish with phase := .arriving }
  | close {w w' : σ} {t : Terminal} {reply : Reply Unit} (h : t.phase = .closing)
      (answer : db.close w t.connection = (reply, w')) :
      Works db w t [] w' { t with phase := .afterClose reply }
  | crash {w : σ} {t : Terminal} (h : t.phase = .crashing) :
      Works db w t [] w { t with last := .crashed, phase := .leaving }
  | leave {w : σ} {t : Terminal} (h : t.phase = .leaving) :
      Works db w t [] w { t with status := .shutDown, phase := .sealing }
  | refuse {w : σ} {t : Terminal} (h : t.phase = .sealing) :
      Works db w t [] w { t with pending := 0, closed := true, phase := .dropping }
  | drop {w : σ} {t : Terminal} (h : t.phase = .dropping) :
      Works db w t [] w { t with queue := [], phase := .gone }

theorem works_of_workerStep
    {db : Database σ} {w w' : σ} {t t' : Terminal}
    (h : workerStep db w t = some (w', t')) : Works db w t (t.workerDeeds db w) w' t' := by
  unfold workerStep at h
  split at h
  case h_2 hphase =>
    split at h
    · rename_i task rest hqueue
      cases h
      simpa [workerDeeds, hphase, hqueue] using Works.take hphase hqueue
    · rename_i hqueue
      split at h
      · cases h
        simpa [workerDeeds, hphase, hqueue] using Works.desert hphase hqueue ‹_›
      · cases h
  case h_7 query hphase =>
    cases h
    simpa [workerDeeds, hphase] using Works.execute hphase rfl
  case h_8 name hphase =>
    cases h
    simpa [workerDeeds, hphase] using Works.fetch hphase rfl
  case h_12 hphase =>
    cases h
    simpa [workerDeeds, hphase] using Works.close hphase rfl
  case h_17 => cases h
  all_goals
    rename_i hphase
    cases h
    simp only [workerDeeds, hphase]
    constructor
    exact hphase

/-- No task is on its way at this stage. -/
def Stage.isIdle : Stage → Bool
  | .marking _ | .counting _ | .sending _ | .uncounting _ | .rejecting _ => false
  | _ => true

/-- The steps of a caller. -/
inductive Advances : Terminal → Stage → List Deed → Terminal → Progress → Prop
  | mark (t : Terminal) (name : String) :
      Advances t (.marking name) [] (t.store name .notReady) (.goOn (.counting (.fetch name)))
  | count {t : Terminal} (task : Task) (closed : t.closed = false) :
      Advances t (.counting task) [] { t with pending := t.pending + 1 } (.goOn (.sending task))
  | late {t : Terminal} (task : Task) (closed : t.closed = true) :
      Advances t (.counting task) [] t (.goOn (.rejecting task))
  | lose {t : Terminal} (task : Task) (gone : t.isGone = true) :
      Advances t (.sending task) [] t (.goOn (.uncounting task))
  | send {t : Terminal} (task : Task) (gone : t.isGone = false)
      (room : t.queue.length < queueCapacity) :
      Advances t (.sending task) [.sent task] { t with queue := t.queue ++ [task] }
        (.done .nothing)
  | uncount (t : Terminal) (task : Task) :
      Advances t (.uncounting task) [] t.finish (.goOn (.rejecting task))
  | reject (t : Terminal) (task : Task) :
      Advances t (.rejecting task) [.rejected task] (t.reject task) (.done .nothing)
  | read (t : Terminal) {stage : Stage} (idle : stage.isIdle = true) (answer : Answer) :
      Advances t stage [] t (.done answer)
  | claim (t : Terminal) : Advances t .claiming [] { t with joinable := false } (.goOn .joining)
  | duplicate (t : Terminal) :
      Advances t .duplicating [] { t with handles := t.handles + 1 } (.done .nothing)
  | give (t : Terminal) :
      Advances t .giving [] { t with handles := t.handles - 1 } (.done .nothing)

theorem advances_of_callStep
    {t t' : Terminal} {stage : Stage} {p : Progress}
    (h : t.callStep stage = some (t', p)) : Advances t stage (t.callDeeds stage) t' p := by
  cases stage with
  | marking name =>
      cases h
      exact Advances.mark t name
  | counting task =>
      by_cases hclosed : t.closed = true
      · rw [callStep, if_pos hclosed] at h
        cases h
        exact Advances.late task hclosed
      · rw [callStep, if_neg hclosed] at h
        cases h
        exact Advances.count task (by simpa using hclosed)
  | sending task =>
      by_cases hgone : t.isGone = true
      · rw [callStep, if_pos hgone] at h
        rw [callDeeds, if_pos hgone]
        cases h
        exact Advances.lose task hgone
      · rw [callStep, if_neg hgone] at h
        rw [callDeeds, if_neg hgone]
        by_cases hroom : t.queue.length < queueCapacity
        · rw [if_pos hroom] at h
          cases h
          exact Advances.send task (by simpa using hgone) hroom
        · rw [if_neg hroom] at h
          cases h
  | uncounting task =>
      cases h
      exact Advances.uncount t task
  | rejecting task =>
      cases h
      exact Advances.reject t task
  | waiting =>
      simp only [callStep] at h
      split at h
      · cases h
        exact Advances.read t rfl _
      · cases h
  | readingRows name =>
      cases h
      exact Advances.read t rfl _
  | readingCode =>
      cases h
      exact Advances.read t rfl _
  | claiming =>
      simp only [callStep] at h
      split at h
      · cases h
        exact Advances.claim t
      · cases h
        exact Advances.read t rfl _
  | joining =>
      simp only [callStep] at h
      split at h
      · cases h
        exact Advances.read t rfl _
      · cases h
  | duplicating =>
      cases h
      exact Advances.duplicate t
  | giving =>
      cases h
      exact Advances.give t

/-- Where a caller stands after a step. -/
def Progress.stages : Progress → Multiset Stage
  | .goOn stage => {stage}
  | .done _ => 0

/-- What a step of anybody can mean for one terminal and the calls that are under way on it. -/
inductive Visit : Terminal → Multiset Stage → List Deed → Terminal → Multiset Stage → Prop
  /-- The step happens elsewhere. -/
  | pass (t : Terminal) (stages : Multiset Stage) : Visit t stages [] t stages
  | work {σ : Type} {db : Database σ} {w w' : σ} {t t' : Terminal} {deeds : List Deed}
      (stages : Multiset Stage) (works : Works db w t deeds w' t') :
      Visit t stages deeds t' stages
  | begin (t : Terminal) (stages : Multiset Stage) (call : Call) :
      Visit t stages [.began call] t (call.stage ::ₘ stages)
  | goOn {t t' : Terminal} {stage : Stage} {deeds : List Deed} {p : Progress}
      (stages : Multiset Stage) (advances : Advances t stage deeds t' p) :
      Visit t (stage ::ₘ stages) deeds t' (p.stages + stages)

/-! ## Callers -/

/-- Where a call that has made a step stands. -/
def Progress.current (i : Nat) : Progress → Option (Nat × Stage)
  | .goOn stage => some (i, stage)
  | .done _ => none

/-- The stage on a terminal of somebody who makes at most one call at a time. -/
def stagesOf (current : Option (Nat × Stage)) (i : Nat) : Multiset Stage :=
  match current with
  | some (k, stage) => if k = i then {stage} else 0
  | none => 0

@[simp] theorem stagesOf_none (i : Nat) : stagesOf none i = 0 :=
  rfl

theorem mem_stagesOf
    {current : Option (Nat × Stage)} {i : Nat} {stage : Stage} :
    stage ∈ stagesOf current i ↔ current = some (i, stage) := by
  rcases current with _ | ⟨k, other⟩
  · simp
  · by_cases hk : k = i
    · simp [stagesOf, hk, eq_comm]
    · simp [stagesOf, hk]

theorem card_stagesOf_le
    (current : Option (Nat × Stage)) (i : Nat) : (stagesOf current i).card ≤ 1 := by
  rcases current with _ | ⟨k, stage⟩
  · simp
  · by_cases hk : k = i <;> simp [stagesOf, hk]

theorem stagesOf_progress
    (p : Progress) (k i : Nat) :
    stagesOf (p.current k) i = if k = i then p.stages else 0 := by
  cases p with
  | goOn next => rfl
  | done answer => exact (ite_self 0).symm

/-- A terminal sees somebody begin a call. -/
theorem visit_begin
    (t : Terminal) (i k : Nat) (call : Call) (others : Multiset Stage) :
    Visit t others (if k = i then [.began call] else []) t
      (stagesOf (some (k, call.stage)) i + others) := by
  by_cases hk : k = i
  · simp only [stagesOf, if_pos hk]
    exact Visit.begin t others call
  · simp only [stagesOf, if_neg hk, Multiset.zero_add]
    exact Visit.pass t others

/-- A terminal sees somebody go on with a call. -/
theorem visit_call
    {ts : List Terminal} {i k : Nat} {stage : Stage} {t u u' : Terminal} {p : Progress}
    (hu : ts[k]? = some u) (hstep : u.callStep stage = some (u', p)) (ht : ts[i]? = some t)
    (others : Multiset Stage) :
    ∃ t', (ts.set k u')[i]? = some t' ∧
      Visit t (stagesOf (some (k, stage)) i + others)
        (if k = i then u.callDeeds stage else []) t' (stagesOf (p.current k) i + others) := by
  rw [stagesOf_progress]
  by_cases hk : k = i
  · subst hk
    have hlength : k < ts.length := (List.getElem?_eq_some_iff.mp ht).1
    rw [ht] at hu
    cases hu
    refine ⟨u', List.getElem?_set_self hlength, ?_⟩
    simp only [stagesOf, if_true, Multiset.singleton_add]
    exact Visit.goOn others (advances_of_callStep hstep)
  · refine ⟨t, ?_, ?_⟩
    · rw [List.getElem?_set_ne hk]
      exact ht
    · simp only [stagesOf, if_neg hk, Multiset.zero_add]
      exact Visit.pass t others

/-- A terminal sees a worker make a step. -/
theorem visit_work
    {db : Database σ} {w w' : σ} {ts : List Terminal} {i k : Nat} {t u u' : Terminal}
    {deeds : List Deed} (hu : ts[k]? = some u) (works : Works db w u deeds w' u')
    (ht : ts[i]? = some t) (stages : Multiset Stage) :
    ∃ t', (ts.set k u')[i]? = some t' ∧
      Visit t stages (if k = i then deeds else []) t' stages := by
  by_cases hk : k = i
  · subst hk
    have hlength : k < ts.length := (List.getElem?_eq_some_iff.mp ht).1
    rw [ht] at hu
    cases hu
    refine ⟨u', List.getElem?_set_self hlength, ?_⟩
    rw [if_pos rfl]
    exact Visit.work stages works
  · refine ⟨t, ?_, ?_⟩
    · rw [List.getElem?_set_ne hk]
      exact ht
    · rw [if_neg hk]
      exact Visit.pass t stages

namespace Caller

/-- The stage of the call that is under way on a terminal. -/
def stagesOn (c : Caller) (i : Nat) : Multiset Stage := stagesOf c.current i

/-- What the next step of a caller does on a terminal. -/
def deedsOn (ts : List Terminal) (c : Caller) (i : Nat) : List Deed :=
  match c.current with
  | some (k, stage) =>
      match ts[k]? with
      | some t => if k = i then t.callDeeds stage else []
      | none => []
  | none =>
      match c.todo with
      | (k, call) :: _ => if k = i then [.began call] else []
      | [] => []

theorem isDone_iff {c : Caller} : c.isDone = true ↔ c.current = none ∧ c.todo = [] := by
  simp only [isDone, Bool.and_eq_true, Option.isNone_iff_eq_none, List.isEmpty_iff]

/-- A caller begins its next call or goes on with the one under way. -/
theorem step_cases
    {ts ts' : List Terminal} {c c' : Caller} (h : c.step ts = some (ts', c')) :
    (∃ k call todo, c.current = none ∧ c.todo = (k, call) :: todo ∧
      ts' = ts ∧ c'.current = some (k, call.stage) ∧ c'.todo = todo) ∨
    ∃ k stage t t' p, c.current = some (k, stage) ∧ ts[k]? = some t ∧
      t.callStep stage = some (t', p) ∧ ts' = ts.set k t' ∧ c'.current = p.current k ∧
      c'.todo = c.todo := by
  unfold step at h
  rcases hcurrent : c.current with _ | ⟨k, stage⟩
  · rw [hcurrent] at h
    rcases htodo : c.todo with _ | ⟨⟨k, call⟩, todo⟩
    · rw [htodo] at h
      cases h
    · rw [htodo] at h
      cases h
      exact Or.inl ⟨k, call, todo, rfl, rfl, rfl, rfl, rfl⟩
  · rw [hcurrent] at h
    rcases ht : ts[k]? with _ | t
    · simp only [ht] at h
      cases h
    · simp only [ht] at h
      rcases hstep : t.callStep stage with _ | ⟨t', next | answer⟩
      · rw [hstep] at h
        cases h
      · rw [hstep] at h
        cases h
        exact Or.inr ⟨k, stage, t, t', _, rfl, ht, hstep, rfl, rfl, rfl⟩
      · rw [hstep] at h
        cases h
        exact Or.inr ⟨k, stage, t, t', _, rfl, ht, hstep, rfl, rfl, rfl⟩

end Caller

/-- What stands among terminals once one of them has changed. -/
theorem getElem?_set_cases
    {ts : List Terminal} {i k : Nat} {t t' u : Terminal} (ht : ts[i]? = some t)
    (ht' : (ts.set k u)[i]? = some t') : k = i ∧ t' = u ∨ k ≠ i ∧ t' = t := by
  have hi : i < ts.length := (List.getElem?_eq_some_iff.mp ht).1
  by_cases hk : k = i
  · subst hk
    rw [List.getElem?_set_self hi] at ht'
    exact Or.inl ⟨rfl, (Option.some.inj ht').symm⟩
  · rw [List.getElem?_set_ne hk, ht] at ht'
    exact Or.inr ⟨hk, (Option.some.inj ht').symm⟩

end Terminal
end CaseSuite
