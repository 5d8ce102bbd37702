import CaseSuite.Terminal.Basic

/-!
# Calls on a terminal

A call of a handle goes through stages, each one atomic. Sending a task first counts it, so that a
caller who waits sees it, and takes the count back if the queue turns out to be gone. A stage that
has no step is blocked: waiting for tasks to be done, for room in the queue or for the worker to
exit.
-/

namespace CaseSuite.Terminal

/-- What can be asked of a handle. -/
inductive Call where
  | execute (query : String)
  | store (name : String)
  | wait
  | rows (name : String)
  | code
  | close
  | join
  /-- Make a second handle. -/
  | duplicate
  /-- Give the handle up. -/
  | drop
  deriving DecidableEq, Repr

/-- Where a caller stands inside a call. -/
inductive Stage where
  /-- Mark a result set as requested. -/
  | marking (name : String)
  /-- Count the task, unless the terminal is closed. -/
  | counting (task : Task)
  /-- Put the task into the queue. -/
  | sending (task : Task)
  /-- The queue was gone: take the count back. -/
  | uncounting (task : Task)
  /-- Record that the task came too late. -/
  | rejecting (task : Task)
  /-- Wait until no task is pending. -/
  | waiting
  | readingRows (name : String)
  | readingCode
  /-- Ask for the worker to join. -/
  | claiming
  /-- Wait until the worker has exited. -/
  | joining
  | duplicating
  | giving
  deriving DecidableEq, Repr

/-- Where a call begins. -/
def Call.stage : Call → Stage
  | .execute query => .counting (.execute query)
  | .store name => .marking name
  | .wait => .waiting
  | .rows name => .readingRows name
  | .code => .readingCode
  | .close => .counting .shutdown
  | .join => .claiming
  | .duplicate => .duplicating
  | .drop => .giving

/-- What a call gives back. -/
inductive Answer where
  | nothing
  | value (v : Value)
  | error (e : RunError)

/-- What a stage leads to. -/
inductive Progress where
  | goOn (stage : Stage)
  | done (answer : Answer)

/-- An answer that may be an error. -/
def Answer.ofExcept : Except RunError Value → Answer
  | .ok v => .value v
  | .error e => .error e

/-- The last result after a task that came too late; closing twice is no failure. -/
def reject (t : Terminal) : Task → Terminal
  | .shutdown => t
  | _ => { t with last := .shutDown }

/-- One step of a caller; there is none while the caller is blocked. -/
def callStep (t : Terminal) : Stage → Option (Terminal × Progress)
  | .marking name => some (t.store name .notReady, .goOn (.counting (.fetch name)))
  | .counting task =>
      if t.closed then some (t, .goOn (.rejecting task))
      else some ({ t with pending := t.pending + 1 }, .goOn (.sending task))
  | .sending task =>
      if t.isGone then some (t, .goOn (.uncounting task))
      else if t.queue.length < queueCapacity then
        some ({ t with queue := t.queue ++ [task] }, .done .nothing)
      else none
  | .uncounting task => some (t.finish, .goOn (.rejecting task))
  | .rejecting task => some (t.reject task, .done .nothing)
  | .waiting => if t.pending = 0 then some (t, .done .nothing) else none
  | .readingRows name => some (t, .done (.ofExcept (t.rows name)))
  | .readingCode => some (t, .done (.value t.code))
  | .claiming =>
      if t.joinable then some ({ t with joinable := false }, .goOn .joining)
      else some (t, .done .nothing)
  | .joining => if t.isGone then some (t, .done .nothing) else none
  | .duplicating => some ({ t with handles := t.handles + 1 }, .done .nothing)
  | .giving => some ({ t with handles := t.handles - 1 }, .done .nothing)

/-- A bound on the steps of a call from a stage on. -/
def Stage.work : Stage → Nat
  | .marking _ => 5
  | .counting _ => 4
  | .sending _ => 3
  | .uncounting _ => 2
  | .rejecting _ => 1
  | .claiming => 2
  | _ => 1

theorem Stage.work_le (stage : Stage) : stage.work ≤ 5 := by
  cases stage <;> simp [work]

/-- Every step of a caller is progress. -/
theorem work_lt_of_callStep {t t' : Terminal} {stage next : Stage}
    (h : t.callStep stage = some (t', .goOn next)) : next.work < stage.work := by
  cases stage <;> simp only [callStep] at h
  all_goals
    repeat' split at h
    all_goals
      simp only [Option.some.injEq, Prod.mk.injEq, Progress.goOn.injEq, reduceCtorEq, and_false] at h
      try (obtain ⟨-, rfl⟩ := h; simp [Stage.work])

/-! ## Callers -/

/-- A thread that makes one call after the other on numbered terminals. -/
structure Caller where
  /-- The call under way. -/
  current : Option (Nat × Stage) := none
  /-- The calls to make after it. -/
  todo : List (Nat × Call)
  /-- What the calls that have returned gave back, the first one first. -/
  answers : List Answer := []

namespace Caller

/-- Every call has returned. -/
def isDone (c : Caller) : Bool := c.current.isNone && c.todo.isEmpty

/-- One step of the caller. -/
def step (ts : List Terminal) (c : Caller) : Option (List Terminal × Caller) :=
  match c.current with
  | none =>
      match c.todo with
      | [] => none
      | (i, call) :: todo => some (ts, { c with current := some (i, call.stage), todo })
  | some (i, stage) =>
      match ts[i]? with
      | none => none
      | some t =>
          match t.callStep stage with
          | none => none
          | some (t, .goOn stage) => some (ts.set i t, { c with current := some (i, stage) })
          | some (t, .done answer) =>
              some (ts.set i t, { c with current := none, answers := c.answers ++ [answer] })

/-- A bound on the steps of the caller. -/
def work (c : Caller) : Nat :=
  7 * c.todo.length + match c.current with
    | none => 0
    | some (_, stage) => stage.work + 1

/-- Every step of the caller is progress. -/
theorem work_lt_of_step {ts ts' : List Terminal} {c c' : Caller}
    (h : c.step ts = some (ts', c')) : c'.work < c.work := by
  unfold step at h
  split at h
  · rename_i hcurrent
    split at h
    · cases h
    · rename_i i call todo htodo
      cases h
      have := Stage.work_le call.stage
      simp only [work, hcurrent, htodo, List.length_cons]
      omega
  · rename_i i stage hcurrent
    split at h
    · cases h
    · split at h
      · cases h
      · rename_i t' next hstep
        cases h
        have := work_lt_of_callStep hstep
        simp only [work, hcurrent]
        omega
      · cases h
        simp only [work, hcurrent]
        omega

/-- Let the caller go on until it is blocked or done. -/
def run (ts : List Terminal) (c : Caller) : List Terminal × Caller :=
  match _h : c.step ts with
  | none => (ts, c)
  | some (ts', c') => run ts' c'
termination_by c.work
decreasing_by exact work_lt_of_step _h

end Caller

end CaseSuite.Terminal
