import CaseSuite.Failure
import CaseSuite.Relation

/-!
# Checking relations

What each relation demands of two values, and what is said when it does not hold.
-/

namespace CaseSuite

namespace Value

/-- Pass if a condition holds and else fail with a message. -/
def demand (condition : Bool) (message : String) : Outcome :=
  if condition then .ok () else .error (.assertion message)

/-- Whether a container holds a member; asking anything else is an error. -/
def holds (container member : Value) : Except RunError Bool :=
  match container.contains? member with
  | some found => .ok found
  | none => .error (.notAContainer container.typeName)

/-- Demand an answer of a container. -/
def demandMember (container member : Value) (wanted : Bool) (message : String) : Outcome :=
  match container.holds member with
  | .error e => .error (.run e)
  | .ok found => demand (found == wanted) message

end Value

open Value in
/-- Check a relation between two values, a container or longer text first. -/
def Relation.check (r : Relation) (first second : Value) : Outcome :=
  let a := first.display
  let b := second.display
  let occurs := Text.contains b.toList a.toList
  match r with
  | .equal => demand (first.equal second) (a ++ " != " ++ b)
  | .notEqual => demand (!first.equal second) (a ++ " == " ++ b)
  | .textEqual => demand (a == b) ("'" ++ a ++ "' != '" ++ b ++ "'")
  | .textNotEqual => demand (a != b) ("'" ++ a ++ "' == '" ++ b ++ "'")
  | .substring => demand occurs ("'" ++ b ++ "' not found in '" ++ a ++ "'")
  | .noSubstring => demand (!occurs) ("'" ++ b ++ "' unexpectedly found in '" ++ a ++ "'")
  | .member => demandMember first second true (b ++ " not found in " ++ a)
  | .notMember => demandMember first second false (b ++ " unexpectedly found in " ++ a)

end CaseSuite
