import CaseSuite.Memory
import CaseSuite.Proofs.Execution.Chronicle
import CaseSuite.Proofs.Execution.Planning
import CaseSuite.Run.Suite
import Mathlib

/-!
# Cases one after the other

The cases of a suite run one after the other over one database, and a worker does not stop for that:
as far as the schedule goes, the worker of a case that has returned could still move while a later
case runs.  It never does.  A case returns when it has torn everything down, so whatever happens in
a case happens before the next one starts.
-/

namespace CaseSuite
namespace Case

open Plan (PlanOf implicitTerminal)

variable {σ : Type}

/-- A suite that runs. -/
structure Succession (σ : Type) where
  /-- The terminals of the cases that have returned, the first case first. -/
  past : List (List Terminal) := []
  now : Running σ
  ahead : List Plan

namespace Succession

/-- A suite before the first step of its first case. -/
def new (w : σ) (p : Plan) (ps : List Plan) : Succession σ :=
  { now := Running.new w p, ahead := ps }

/-- Who moves. -/
inductive Mover where
  /-- Somebody in the case that runs. -/
  | current (mover : Case.Mover)
  /-- The worker of a terminal of a case that has returned. -/
  | worker (number terminal : Nat)
  /-- The next case starts. -/
  | next

/-- The suite after one step of a mover, if the mover has one. -/
def move (db : Database σ) (env : Environment) (s : Succession σ) :
    Mover → Option (Succession σ)
  | .current mover => do
      let m ← s.now.move db env mover
      return { s with now := m }
  | .worker number i => do
      let ts ← s.past[number]?
      let m ← { s.now with terminals := ts }.workerStep db i
      return { s with past := s.past.set number m.terminals, now := { s.now with world := m.world } }
  | .next =>
      match s.now.thread, s.ahead with
      | .returned _, p :: ps =>
          some { past := s.past ++ [s.now.terminals], now := Running.new s.now.world p, ahead := ps }
      | _, _ => none

/-- The suite after a schedule, if every mover in it can move in its turn. -/
def runSchedule (db : Database σ) (env : Environment) (s : Succession σ) (movers : List Mover) :
    Option (Succession σ) :=
  movers.foldlM (move db env) s

/-- What happens in a suite. -/
inductive Incident where
  | started
  | happened (x : Happening)

/-- What happens by a step, with the number of its case. -/
def incidents (db : Database σ) (s s' : Succession σ) : Mover → List (Nat × Incident)
  | .current mover =>
      (s.now.happenings db s'.now mover).map fun x => (s.past.length, .happened x)
  | .worker number i =>
      match s.past[number]? with
      | some ts =>
          ({ s.now with terminals := ts }.happenings db s'.now (.worker i)).map fun x =>
            (number, .happened x)
      | none => []
  | .next => [(s'.past.length, .started)]

/-- What happens along a schedule, with the numbers of the cases. -/
def history (db : Database σ) (env : Environment) (s : Succession σ) :
    List Mover → List (Nat × Incident)
  | [] => []
  | mover :: movers =>
      match s.move db env mover with
      | some s' => s.incidents db s' mover ++ s'.history db env movers
      | none => []

/-! ## Cases do not overlap -/

/-- The cases that have returned have left no worker behind. -/
structure Settled (s : Succession σ) : Prop where
  past : ∀ ts ∈ s.past, ∀ t ∈ ts, t.isGone = true
  now : ∃ p h, Chronicle p s.now h

theorem workerStep_of_isGone
    {db : Database σ} {w : σ} {t : Terminal} (h : t.isGone = true) :
    t.workerStep db w = none := by
  rw [Option.eq_none_iff_forall_not_mem]
  rintro ⟨w', t'⟩ hstep
  have hhere := (works_joinable (Terminal.works_of_workerStep hstep)).2
  rw [h] at hhere
  cases hhere

theorem Settled.move
    {db : Database σ} {env : Environment} {s s' : Succession σ} {mover : Mover} (h : s.Settled)
    (hmove : s.move db env mover = some s') :
    s'.Settled ∧ s.past.length ≤ s'.past.length ∧
      ∀ x ∈ s.incidents db s' mover, x.1 = s'.past.length := by
  obtain ⟨p, past, hchronicle⟩ := h.now
  cases mover with
  | current mover =>
      obtain ⟨m, hm, heq⟩ := Option.bind_eq_some_iff.mp hmove
      cases heq
      refine ⟨⟨h.past, p, _, hchronicle.turn (turn_of_move hm)⟩, Nat.le_refl _, ?_⟩
      intro x hx
      obtain ⟨y, -, rfl⟩ := List.mem_map.mp hx
      rfl
  | worker number i =>
      -- a worker that is gone does not move
      obtain ⟨ts, hts, hrest⟩ := Option.bind_eq_some_iff.mp hmove
      obtain ⟨m, hm, -⟩ := Option.bind_eq_some_iff.mp hrest
      obtain ⟨t, w, t', ht, hstep, -⟩ := workerStep_eq_some hm
      have hgone := h.past ts (List.mem_of_getElem? hts) t (List.mem_of_getElem? ht)
      rw [workerStep_of_isGone hgone] at hstep
      cases hstep
  | next =>
      simp only [Succession.move] at hmove
      split at hmove
      · rename_i outcome q ps hreturned hahead
        cases hmove
        obtain ⟨before, after, -, htorn⟩ := hchronicle.tornDown hreturned
        refine ⟨⟨?_, q, [], chronicle_new _ q⟩, by simp, ?_⟩
        · intro ts hts
          rcases List.mem_append.mp hts with hold | hnew
          · exact h.past ts hold
          · obtain rfl := List.mem_singleton.mp hnew
            exact htorn.gone
        · intro x hx
          obtain rfl := List.mem_singleton.mp hx
          rfl
      · cases hmove

end Succession

/-! ## The run of a suite is one of its schedules -/

section Runs

variable {db : Database σ} {env : Environment}

/-- Some schedule leads from one state to the other. -/
def Running.Reaches (db : Database σ) (env : Environment) (m m' : Running σ) : Prop :=
  ∃ movers, m.runSchedule db env movers = some m'

theorem Running.Reaches.trans
    {m₁ m₂ m₃ : Running σ} (hfirst : m₁.Reaches db env m₂) (hsecond : m₂.Reaches db env m₃) :
    m₁.Reaches db env m₃ := by
  obtain ⟨first, hfirst⟩ := hfirst
  obtain ⟨second, hsecond⟩ := hsecond
  refine ⟨first ++ second, ?_⟩
  rw [runSchedule] at hfirst
  rw [runSchedule, List.foldlM_append, hfirst]
  exact hsecond

namespace Succession

end Succession

end Runs

/-! ## Suites -/

/-- A case that leaves a query under way, loses the worker of its second terminal and then fails. -/
def abandoned : TestCase :=
  ⟨"abandoned", 1,
    [.declare ["a"], .request ⟨.implicit, .async, "q", false⟩,
      .check .equal (.request ⟨.named "a", .sync, "p", false⟩) (.number "1")]⟩

/-- The plan of that case. -/
def abandonedPlan : Plan :=
  ⟨"test_1_abandoned",
    [.start "case_terminal", .start "a", .run (.call "case_terminal" .execute (some "q")),
      .run (.call "a" .execute (some "p")), .run (.call "a" .wait none),
      .bind "tmp_1" (.call "a" .code none), .bind "tmp_2" (.int 1),
      .check .equal "tmp_1" "tmp_2"]⟩

/-- The plan of a case without statements. -/
def emptyPlan : Plan := ⟨"test_2_empty", [.start "case_terminal"]⟩

theorem suite_abandoned :
    CaseFile.suite ⟨"", [abandoned, ⟨"empty", 5, []⟩]⟩ =
      .ok ⟨"", [abandonedPlan, emptyPlan]⟩ :=
  rfl

/-- The query `p` is one that the database does not survive. -/
def brittle : Memory := { script := { responses := [("p", .crash "gone")] } }

end Case
end CaseSuite
