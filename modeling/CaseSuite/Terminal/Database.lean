import CaseSuite.Failure
import CaseSuite.Text.Quoted

/-!
# Databases

What a terminal needs of a database. The state of the database is a parameter, shared by all its
connections, so an answer may depend on everything that was asked before.
-/

namespace CaseSuite

/-- A row of a result set. -/
abbrev Row := List Value

/-- How a call on a database ends. -/
inductive Reply (α : Type) where
  | done (result : α)
  | refused (diagnostic : Diagnostic)
  /-- The call never returns: the thread that made it is lost. -/
  | crashed (message : String)
  deriving DecidableEq, Repr

/-- The calls of a database with states `σ`; connections are numbered. -/
structure Database (σ : Type) where
  connect : σ → (config : String) → (autoCommit : Bool) → Reply Nat × σ
  execute : σ → (connection : Nat) → (query : String) → Reply Unit × σ
  fetch : σ → (connection : Nat) → Reply (List Row) × σ
  close : σ → (connection : Nat) → Reply Unit × σ

/-- What connections are opened with. -/
structure Environment where
  config : String
  autoCommit : Bool := true
  deriving DecidableEq, Repr

/-- An environment as it is shown. -/
def Environment.describe (env : Environment) : String :=
  let autoCommit := if env.autoCommit then "true" else "false"
  "CaseEnv \x7b config: " ++ Text.literal env.config ++ ", auto_commit: " ++ autoCommit ++
    ", .. \x7d"

end CaseSuite
