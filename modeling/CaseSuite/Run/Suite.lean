import CaseSuite.Run.Case
import CaseSuite.Run.Summary

/-!
# Running a suite

The plans of a suite run one after the other over one database.
-/

namespace CaseSuite

open Case

variable {σ : Type}

/-- Run a plan; there is no outcome if its thread can never return. -/
def Plan.run (db : Database σ) (env : Environment) (held : String → Bool) (w : σ) (p : Plan) :
    Option Outcome × σ :=
  let m := (Running.new w p).run db env held
  (m.outcome?, m.world)

/-- Run plans in order. -/
def Plan.runAll (db : Database σ) (env : Environment) (held : String → Bool) (w : σ) :
    List Plan → Option (List CaseRun) × σ
  | [] => (some [], w)
  | p :: ps =>
      match p.run db env held w with
      | (none, w) => (none, w)
      | (some outcome, w) =>
          let (rest, w) := Plan.runAll db env held w ps
          (rest.map (⟨p.function, outcome⟩ :: ·), w)

/-- What connections of a suite are opened with. -/
def Suite.environment (s : Suite) : Environment := { config := s.config }

/-- Run a suite. -/
def Suite.run (db : Database σ) (held : String → Bool) (w : σ) (s : Suite) :
    Option Summary × σ :=
  let (cases, w) := Plan.runAll db s.environment held w s.plans
  (cases.map Summary.mk, w)

end CaseSuite
