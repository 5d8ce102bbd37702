import CaseSuite.Plan.Basic

/-!
# Scopes

Before a plan runs, its names are checked: every name is bound before it is used, calls are made on
terminals and relations are checked between values. A later binding of a name hides an earlier one.
-/

namespace CaseSuite.Plan

/-- What a name stands for. -/
inductive NameSort where
  | terminal
  | value
  deriving DecidableEq, Repr

/-- The names bound so far, the latest first. -/
abbrev Scope := List (String × NameSort)

/-- The sort of an operand, or the name that is not of the sort it should be. -/
def operandSort (scope : Scope) : Operand → Except String NameSort
  | .variable name =>
      match scope.lookup name with
      | some sort => .ok sort
      | none => .error name
  | .call terminal _ _ =>
      if scope.lookup terminal = some .terminal then .ok .value else .error terminal
  | _ => .ok .value

/-- The scope after an action, or the name that is used wrongly. -/
def actionScope (scope : Scope) : Action → Except String Scope
  | .start terminal => .ok ((terminal, .terminal) :: scope)
  | .bind target value => do
      let sort ← operandSort scope value
      return (target, sort) :: scope
  | .run value => do
      let _ ← operandSort scope value
      return scope
  | .check _ left right =>
      if scope.lookup left ≠ some .value then .error left
      else if scope.lookup right ≠ some .value then .error right
      else .ok scope

/-- The scope after actions in order. -/
def actionsScope (scope : Scope) : List Action → Except String Scope
  | [] => .ok scope
  | a :: as => do
      let scope ← actionScope scope a
      actionsScope scope as

/-- The first name that a plan uses wrongly. -/
def misuse? (p : Plan) : Option String :=
  match actionsScope [] p.actions with
  | .ok _ => none
  | .error name => some name

end CaseSuite.Plan

namespace CaseSuite

/-- The first plan that uses a name wrongly, and that name. -/
def Suite.misuse? (s : Suite) : Option (String × String) :=
  s.plans.findSome? fun p => p.misuse?.map fun name => (p.function, name)

end CaseSuite
