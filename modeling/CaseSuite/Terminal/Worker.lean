import CaseSuite.Terminal.Basic

/-!
# Workers

One step of a worker, and what it does when it is left alone: it works until it waits for a task,
is gone, or stands before a query that is held back.
-/

namespace CaseSuite.Terminal

variable {σ : Type}

/-- What a worker does about the answer to a query. -/
def Phase.afterExecute : Reply Unit → Phase
  | .done () => .finishing
  | .refused d => .reporting d
  | .crashed _ => .crashing

/-- What a worker does about the rows it fetched. -/
def Phase.afterFetch (name : String) : Reply (List Row) → Phase
  | .done rows => .storing name (rowsValue rows)
  | .refused d => .reporting d
  | .crashed _ => .crashing

/-- After closing its connection a worker leaves; what the database says about it is not kept. -/
def Phase.afterClose : Reply Unit → Phase
  | .crashed _ => .crashing
  | _ => .leaving

/-- One step of the worker; there is none when it waits for a task or is gone. -/
def workerStep (db : Database σ) (w : σ) (t : Terminal) : Option (σ × Terminal) :=
  match t.phase with
  | .arriving => some (w, { t with status := .waiting, phase := .waiting })
  | .waiting =>
      match t.queue with
      | task :: rest => some (w, { t with queue := rest, phase := .starting task })
      | [] => if t.handles = 0 then some (w, { t with phase := .starting .shutdown }) else none
  | .starting .shutdown => some (w, { t with status := .shutDown, phase := .closing })
  | .starting (.execute query) =>
      some (w, { t with status := .executing, phase := .clearing query })
  | .starting (.fetch name) => some (w, { t with status := .executing, phase := .fetching name })
  | .clearing query => some (w, { t with last := .success, phase := .executing query })
  | .executing query =>
      let (reply, w) := db.execute w t.connection query
      some (w, { t with phase := .afterExecute reply })
  | .fetching name =>
      let (reply, w) := db.fetch w t.connection
      some (w, { t with phase := .afterFetch name reply })
  | .storing name rows => some (w, { t.store name (.ready rows) with phase := .finishing })
  | .reporting d => some (w, { t with last := .ofDiagnostic d, phase := .finishing })
  | .finishing => some (w, { t.finish with phase := .arriving })
  | .closing =>
      let (reply, w) := db.close w t.connection
      some (w, { t with phase := .afterClose reply })
  | .crashing => some (w, { t with last := .crashed, phase := .leaving })
  | .leaving => some (w, { t with status := .shutDown, phase := .sealing })
  | .sealing => some (w, { t with pending := 0, closed := true, phase := .dropping })
  | .dropping => some (w, { t with queue := [], phase := .gone })
  | .gone => none

/-- How many steps a worker can take at most before it takes another task, or is gone. -/
def Phase.work : Phase → Nat
  | .gone => 0
  | .dropping => 1
  | .sealing => 2
  | .leaving => 3
  | .crashing => 4
  | .closing => 5
  | .starting .shutdown => 6
  | .waiting => 7
  | .arriving => 8
  | .finishing => 9
  | .storing _ _ => 10
  | .reporting _ => 10
  | .fetching _ => 11
  | .executing _ => 11
  | .clearing _ => 12
  | .starting _ => 13

/-- A bound on the steps a worker can take while nobody sends it a task. -/
def work (t : Terminal) : Nat := 7 * t.queue.length + t.phase.work

theorem Phase.work_afterExecute (reply : Reply Unit) : (afterExecute reply).work < 11 := by
  cases reply <;> simp [afterExecute, work]

theorem Phase.work_afterFetch (name : String) (reply : Reply (List Row)) :
    (afterFetch name reply).work < 11 := by
  cases reply <;> simp [afterFetch, work]

theorem Phase.work_afterClose (reply : Reply Unit) : (afterClose reply).work < 5 := by
  cases reply <;> simp [afterClose, work]

/-- Every step of the worker is progress. -/
theorem work_lt_of_workerStep {db : Database σ} {w w' : σ} {t t' : Terminal}
    (h : workerStep db w t = some (w', t')) : t'.work < t.work := by
  unfold workerStep at h
  split at h
  case h_2 hphase =>
    split at h
    · rename_i task rest hqueue
      cases h
      cases task <;> simp [work, hphase, hqueue, Phase.work] <;> omega
    · rename_i hqueue
      split at h
      · cases h
        simp [work, hphase, hqueue, Phase.work]
      · cases h
  case h_7 query hphase =>
    cases h
    have hbefore : t.phase.work = 11 := by rw [hphase]; rfl
    have hafter := Phase.work_afterExecute (db.execute w t.connection query).1
    exact Nat.add_lt_add_left (hbefore ▸ hafter) _
  case h_8 name hphase =>
    cases h
    have hbefore : t.phase.work = 11 := by rw [hphase]; rfl
    have hafter := Phase.work_afterFetch name (db.fetch w t.connection).1
    exact Nat.add_lt_add_left (hbefore ▸ hafter) _
  case h_12 hphase =>
    cases h
    have hbefore : t.phase.work = 5 := by rw [hphase]; rfl
    have hafter := Phase.work_afterClose (db.close w t.connection).1
    exact Nat.add_lt_add_left (hbefore ▸ hafter) _
  case h_17 => cases h
  all_goals
    rename_i hphase
    cases h
    simp [work, hphase, Phase.work, store, finish]

/-- The worker stands before a query that is held back. -/
def isHeld (held : String → Bool) (t : Terminal) : Bool :=
  match t.phase with
  | .executing query => held query
  | _ => false

/-- Let the worker work until it can do no more or stands before a held query. -/
def settle (db : Database σ) (held : String → Bool) (w : σ) (t : Terminal) : σ × Terminal :=
  if t.isHeld held then (w, t)
  else
    match _h : workerStep db w t with
    | none => (w, t)
    | some (w', t') => settle db held w' t'
termination_by t.work
decreasing_by exact work_lt_of_workerStep _h

/-- Let the workers of several terminals work, one after the other. -/
def settleAll (db : Database σ) (held : String → Bool) (w : σ) :
    List Terminal → σ × List Terminal
  | [] => (w, [])
  | t :: ts =>
      let (w, t) := t.settle db held w
      let (w, ts) := settleAll db held w ts
      (w, t :: ts)

theorem length_settleAll (db : Database σ) (held : String → Bool) (w : σ) (ts : List Terminal) :
    (settleAll db held w ts).2.length = ts.length := by
  induction ts generalizing w with
  | nil => rfl
  | cons t ts ih => simp [settleAll, ih]

end CaseSuite.Terminal
