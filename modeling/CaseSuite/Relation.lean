/-!
# Relations

What an assertion can ask of its two operands.
-/

namespace CaseSuite

/-- A relation between two values that an assertion demands. -/
inductive Relation where
  | equal
  | notEqual
  | textEqual
  | textNotEqual
  | substring
  | noSubstring
  | member
  | notMember
  deriving DecidableEq, Repr

namespace Relation

/-- Every relation. -/
def all : List Relation :=
  [equal, notEqual, textEqual, textNotEqual, substring, noSubstring, member, notMember]

/-- The word for a relation, in a case file and in generated code. -/
def word : Relation → String
  | equal => "expect_equal"
  | notEqual => "expect_not_equal"
  | textEqual => "expect_str_equal"
  | textNotEqual => "expect_str_not_equal"
  | substring => "expect_substr"
  | noSubstring => "expect_no_substr"
  | member => "expect_in"
  | notMember => "expect_not_in"

end Relation

end CaseSuite
