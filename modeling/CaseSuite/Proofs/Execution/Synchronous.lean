import CaseSuite.Memory
import CaseSuite.Proofs.Execution.Agreement
import Mathlib

/-!
# Schedules of synchronous cases

Which thread moves when is left to a schedule.  For a synchronous case it does not matter: every
schedule ends, and all of them end in the same way, with the same bindings and after the same calls
on the database, in the same order.  They are those of the runtime that runs each task at the moment
it is sent.
-/

namespace CaseSuite

variable {σ : Type}

/-- What a database was asked before the teardown. -/
inductive Asked where
  | connect (config : String) (autoCommit : Bool)
  | execute (connection : Nat) (query : String)
  | fetch (connection : Nat)
  deriving DecidableEq, Repr

/-- A database that also records what it is asked; a close leaves no record. -/
def Database.recorded (db : Database σ) : Database (σ × List Asked) where
  connect w config autoCommit :=
    let (reply, w') := db.connect w.1 config autoCommit
    (reply, w', w.2 ++ [.connect config autoCommit])
  execute w connection query :=
    let (reply, w') := db.execute w.1 connection query
    (reply, w', w.2 ++ [.execute connection query])
  fetch w connection :=
    let (reply, w') := db.fetch w.1 connection
    (reply, w', w.2 ++ [.fetch connection])
  close w connection :=
    let (reply, w') := db.close w.1 connection
    (reply, w', w.2)

namespace Case

open Plan (PlanOf Tidy)

/-- How a thread stands once nothing moves, by what its run came to. -/
def Thread.EndsAs (thread : Thread) : Except Halt Unit → Prop
  | .ok () => thread = .returned (.ok ())
  | .error (.failed e) => thread = .returned (.error e)
  | .error .stuck => ∃ a rest, thread = .body (a :: rest)

section Runs

variable {α : Type} {db : Database σ} {env : Environment} {f : σ → α}
  {R : Except Halt Unit × Record (Desk σ)} {m m' : Running σ}

theorem Agrees.new
    (w : σ) {p : Plan} (tidy : Tidy .free p.actions) :
    Agrees db env f (runPlan (sequential db env) ⟨w, []⟩ p) (Running.new w p) := by
  refine Agrees.goOn tidy (by simp) ?_ rfl
  constructor <;> simp

theorem Agrees.run
    (h : Agrees db env f R m) (hsound : m.Sound)
    (hclose : ∀ w connection, f (db.close w connection).2 = f w)
    (hrun : Relation.ReflTransGen (Running.Step db env) m m') :
    Agrees db env f R m' ∧ m'.Sound := by
  induction hrun with
  | refl => exact ⟨h, hsound⟩
  | tail _ hstep ih =>
      obtain ⟨hs, hturn⟩ := turn_of_step hstep
      exact ⟨ih.1.turn ih.2 hclose hturn, ih.2.turn hturn⟩

/-- Between its query and the wait for it a body is never stuck. -/
theorem eq_none_of_act_none
    {a : Action} {rest : List Action} {pace : Plan.Pace} {busy : Option Nat}
    (tidy : Tidy pace (a :: rest)) (busyAt : BusyAt m.names busy pace)
    (hstuck : m.act db env a rest = none) : busy = none := by
  cases tidy with
  | store =>
      obtain ⟨i, hi, -⟩ := busyAt
      simp [Running.act, Running.evaluate, callOf?, hi] at hstuck
  | wait under =>
      rcases under with rfl | rfl
      · obtain ⟨i, hi, -⟩ := busyAt
        simp [Running.act, Running.evaluate, callOf?, hi] at hstuck
      · obtain ⟨i, hi, -⟩ := busyAt
        simp [Running.act, Running.evaluate, callOf?, hi] at hstuck
  | _ => exact busyAt

/-- Where nothing moves, the case has come to what the desk has come to. -/
theorem Agrees.final
    (h : Agrees db env f R m) (hsound : m.Sound) (hfinal : ∀ m', ¬ Running.Step db env m m') :
    m.thread.EndsAs R.1 ∧ m.names = R.2.names ∧ f m.world = f R.2.state.world := by
  rcases hsound.final hfinal with ⟨outcome, hthread⟩ | ⟨a, rest, hthread, hstuck⟩
  · obtain ⟨s, ops, -, observed, due⟩ := h.of_left (by rw [hthread]; rfl)
    subst due
    refine ⟨?_, rfl, observed.symm⟩
    cases outcome with
    | ok => exact hthread
    | error e => exact hthread
  · obtain ⟨pace, busy, s, ops, tidy, -, busyAt, foreseen, -, due⟩ := h.of_body hthread
    rw [Run.runFrom_of_act_none hstuck] at due
    obtain rfl := eq_none_of_act_none tidy busyAt hstuck
    subst due
    exact ⟨⟨a, rest, hthread⟩, rfl, congrArg f (foreseen.calm rfl).symm⟩

end Runs

/-- Where every schedule ends there is one that has ended. -/
theorem exists_final
    {β : Type} {step : β → β → Prop} {b : β} (h : Acc (fun b' b => step b b') b) :
    ∃ last, Relation.ReflTransGen step b last ∧ ∀ next, ¬ step last next := by
  induction h with
  | intro b _ ih =>
      by_cases hmore : ∃ next, step b next
      · obtain ⟨next, hnext⟩ := hmore
        obtain ⟨last, hrun, hlast⟩ := ih next hnext
        exact ⟨last, Relation.ReflTransGen.head hnext hrun, hlast⟩
      · exact ⟨b, Relation.ReflTransGen.refl, not_exists.mp hmore⟩

/-- The run of a plan that runs each task at the moment it is sent. -/
def sequentialRun (db : Database σ) (env : Environment) (w : σ) (p : Plan) :
    Except Halt Unit × Record (Desk (σ × List Asked)) :=
  runPlan (sequential db.recorded env) { world := (w, []) } p

/-- Every schedule of a plan ends, and where it ends the outcome, the bindings and what the database
was asked are those of the sequential run. -/
structure SchedulesAgree (db : Database σ) (env : Environment) (w : σ) (p : Plan) : Prop where
  ends : Acc (fun m' m => Running.Step db.recorded env m m') (Running.new (w, []) p)
  agree : ∀ m, Relation.ReflTransGen (Running.Step db.recorded env) (Running.new (w, []) p) m →
    (∀ m', ¬ Running.Step db.recorded env m m') →
      m.thread.EndsAs (sequentialRun db env w p).1 ∧
      m.names = (sequentialRun db env w p).2.names ∧
      m.world.2 = (sequentialRun db env w p).2.state.world.2

theorem schedulesAgree_of_planOf
    {c : TestCase} {p : Plan} (h : PlanOf c p) (hsync : c.Synchronous) (db : Database σ)
    (env : Environment) (w : σ) : SchedulesAgree db env w p := by
  obtain ⟨body, hplanned, hactions⟩ := h
  have tidy : Tidy .free p.actions := by
    rw [hactions]
    exact Tidy.start (hplanned.tidy hsync)
  refine ⟨acc_step _ _ _, ?_⟩
  intro m hrun hfinal
  obtain ⟨hagrees, hsound⟩ := (Agrees.new (f := Prod.snd) (w, []) tidy).run
    (Running.sound_new _ _) (fun _ _ => rfl) hrun
  exact hagrees.final hsound hfinal

/-- The cases of a file that are synchronous do not depend on the schedule. -/
theorem synchronous_schedulesAgree
    {file : CaseFile} {suite : Suite} (h : file.suite = .ok suite) :
    List.Forall₂ (fun c p => c.Synchronous → ∀ {σ : Type} (db : Database σ) (env : Environment)
      (w : σ), SchedulesAgree db env w p) file.cases suite.plans := by
  refine (Plan.suite_ok h).imp ?_
  intro c p hplan hsync σ db env w
  exact schedulesAgree_of_planOf hplan hsync db env w

/-- A case that loses the worker of its second terminal and goes on. -/
def lostWorker : TestCase :=
  ⟨"lost", 1,
    [.declare ["a"],
      .assign "x" (.request ⟨.implicit, .sync, "q", true⟩),
      .check .equal (.request ⟨.named "a", .sync, "p", false⟩) (.number "2"),
      .check .equal (.request ⟨.named "a", .sync, "q", false⟩) (.number "2")]⟩

/-- The plan of that case. -/
def lostWorkerPlan : Plan :=
  ⟨"test_1_lost",
    [.start "case_terminal", .start "a",
      .run (.call "case_terminal" .execute (some "q")),
      .run (.call "case_terminal" .store (some "result")),
      .run (.call "case_terminal" .wait none),
      .bind "tmp_1" (.call "case_terminal" .rows (some "result")), .bind "x" (.variable "tmp_1"),
      .run (.call "a" .execute (some "p")), .run (.call "a" .wait none),
      .bind "tmp_2" (.call "a" .code none), .bind "tmp_3" (.int 2),
      .check .equal "tmp_2" "tmp_3",
      .run (.call "a" .execute (some "q")), .run (.call "a" .wait none),
      .bind "tmp_4" (.call "a" .code none), .bind "tmp_5" (.int 2),
      .check .equal "tmp_4" "tmp_5"]⟩

/-- The query `p` is one that the database does not survive. -/
def fragile : Memory :=
  { script := { responses := [("q", .rows [[]]), ("p", .crash "gone")] } }

theorem suite_lostWorker :
    CaseFile.suite ⟨"", [lostWorker]⟩ = .ok ⟨"", [lostWorkerPlan]⟩ :=
  rfl

theorem sequentialRun_lostWorker :
    (sequentialRun Memory.database ⟨"", true⟩ fragile lostWorkerPlan).1 = .ok () ∧
      valueOf? (sequentialRun Memory.database ⟨"", true⟩ fragile lostWorkerPlan).2.names "x" =
        some (.list [.list []]) ∧
      (sequentialRun Memory.database ⟨"", true⟩ fragile lostWorkerPlan).2.state.world.2 =
        [.connect "" true, .connect "" true, .execute 0 "q", .fetch 0, .execute 1 "p"] := by
  refine ⟨?_, ?_, ?_⟩ <;> cbv

theorem schedulesAgree_lostWorker :
    CaseFile.suite ⟨"", [lostWorker]⟩ = .ok ⟨"", [lostWorkerPlan]⟩ ∧ lostWorker.Synchronous ∧
      ∃ m, Relation.ReflTransGen (Running.Step Memory.database.recorded ⟨"", true⟩)
          (Running.new (fragile, []) lostWorkerPlan) m ∧
        m.thread = .returned (.ok ()) ∧
        valueOf? m.names "x" = some (.list [.list []]) ∧
        m.world.2 = [.connect "" true, .connect "" true, .execute 0 "q", .fetch 0,
          .execute 1 "p"] := by
  have hsync : lostWorker.Synchronous := by decide
  have hplan := (List.forall₂_cons.mp (synchronous_schedulesAgree suite_lostWorker)).1 hsync
    Memory.database ⟨"", true⟩ fragile
  obtain ⟨m, hrun, hfinal⟩ := exists_final hplan.ends
  have hagree := hplan.agree m hrun hfinal
  obtain ⟨hok, hx, hlog⟩ := sequentialRun_lostWorker
  rw [hok] at hagree
  obtain ⟨hthread, hnames, hasked⟩ := hagree
  refine ⟨suite_lostWorker, hsync, m, hrun, hthread, ?_, ?_⟩
  · rw [hnames, hx]
  · rw [hasked, hlog]

end Case
end CaseSuite
