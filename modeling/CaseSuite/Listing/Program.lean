import CaseSuite.Listing.Page
import CaseSuite.Plan.Basic
import CaseSuite.Number.Text
import CaseSuite.Text.Quoted

/-!
# Writing a program

The listing of a program is a module of the target language with one function for each routine and
one that runs them all.
-/

namespace CaseSuite

open Listing

/-- The argument of a call, if it has one. -/
def Operand.argumentText : Option String → String
  | some argument => Text.literal argument
  | none => ""

/-- An operand as an expression. -/
def Operand.text? : Operand → Except NameError String
  | .text content => .ok ("Value::from(" ++ Text.literal content ++ ")")
  | .int value => .ok ("Value::Int(" ++ Number.intText value.toInt ++ ")")
  | .float value => .ok ("Value::Float(" ++ value.text ++ ")")
  | .variable name => do
      let name ← binding name
      return name ++ ".clone()"
  | .call terminal method argument => do
      let terminal ← binding terminal
      let ending := if method.fallible then "?" else ""
      return terminal ++ "." ++ method.name ++ "(" ++ argumentText argument ++ ")" ++ ending

/-- An action as a statement. -/
def Action.text? : Action → Except NameError String
  | .start terminal => do
      let name ← binding terminal
      return "let " ++ name ++ " = terminals.start(" ++ Text.literal terminal ++ ", &self.env)?;"
  | .bind target value => do
      let target ← binding target
      let value ← value.text?
      return "let " ++ target ++ " = " ++ value ++ ";"
  | .run value => do
      let value ← value.text?
      return value ++ ";"
  | .check relation left right => do
      let left ← binding left
      let right ← binding right
      return relation.word ++ "(&" ++ left ++ ", &" ++ right ++ ")?;"

namespace Instr

/-- The lines that follow a guarded body and turn what ended it into the outcome. -/
def guardMarks (label : String) : List Mark :=
  let label := Text.literal label
  [.line "Ok(())",
   .reopening "\x7d) \x7b",
   .line ("Err(CaseFailure::Assertion(failure)) => fail_assertion(" ++ label ++ ", failure),"),
   .line ("Err(failure) => fail_unexpected(" ++ label ++ ", failure),"),
   .line "Ok(()) => Ok(()),",
   .closing "\x7d;"]

/-- The lines that close and then join every terminal. -/
def teardownMarks : List Mark :=
  [.line "let terminals = terminals.into_inner();",
   .opening "for term in &terminals \x7b", .line "term.close();", .closing "\x7d",
   .opening "for term in &terminals \x7b", .line "term.join();", .closing "\x7d"]

/-- A body under guard. -/
def guardedDraft (label : String) (body : Draft) : Draft :=
  Draft.ofMarks [.opening "let outcome = match guarded(|| -> CaseResult \x7b"] ++ body ++
    Draft.ofMarks (guardMarks label)

mutual

/-- The draft of an instruction. -/
def draft : Instr → Draft
  | .register => Draft.ofMarks [.line "let terminals = TerminalRegistry::new();"]
  | .action a => Draft.line a.text?
  | .guarded label body => guardedDraft label (draftAll body)
  | .teardown => Draft.ofMarks teardownMarks

/-- The draft of instructions in order. -/
def draftAll : List Instr → Draft
  | [] => {}
  | i :: is => i.draft ++ draftAll is

end

end Instr

/-- The function of a routine, after a blank line. -/
def Routine.draft (r : Routine) : Draft :=
  Draft.ofMarks [.blank, .opening ("pub fn " ++ r.function ++ "(&self) -> CaseResult \x7b")] ++
    Instr.draftAll r.body ++ Draft.ofMarks [.line "outcome", .closing "\x7d"]

/-- The line that runs a routine. -/
def Routine.runLine (r : Routine) : Mark :=
  .line ("suite.run(" ++ Text.literal r.function ++ ", || cases." ++ r.function ++ "());")

namespace Program

/-- What stands before the functions of the cases. -/
def opening (config : String) : List Mark :=
  [.line "// Generated by case-compiler. Do not edit.",
   .line "#![allow(unused_variables, non_snake_case)]",
   .blank,
   .line "use std::sync::Arc;",
   .blank,
   .line "use case_compiler::runtime::prelude::*;",
   .blank,
   .line ("pub const CONFIG: &str = " ++ Text.rawLiteral config ++ ";"),
   .blank,
   .opening "pub struct GeneratedCases \x7b",
   .line "env: CaseEnv,",
   .closing "\x7d",
   .blank,
   .opening "impl GeneratedCases \x7b",
   .opening "pub fn new(connector: Arc<dyn Connector>) -> Self \x7b",
   .opening "Self \x7b",
   .line "env: CaseEnv::new(CONFIG, connector),",
   .closing "\x7d",
   .closing "\x7d"]

/-- What stands after the functions of the cases. -/
def closing (routines : List Routine) : List Mark :=
  [.closing "\x7d",
   .blank,
   .opening "pub fn run_all(connector: Arc<dyn Connector>) -> SuiteReport \x7b",
   .line "let cases = GeneratedCases::new(connector);",
   .line "let mut suite = SuiteRunner::new();"] ++
  routines.map Routine.runLine ++
  [.line "suite.finish()",
   .closing "\x7d"]

/-- The draft of a program. -/
def draft (p : Program) : Draft :=
  Draft.ofMarks (opening p.config) ++ Draft.concat (p.routines.map Routine.draft) ++
    Draft.ofMarks (closing p.routines)

/-- Write a program after what a page already holds. -/
def listingOn (page : Page) (p : Program) : Except NameError String :=
  match p.draft.writeTo page with
  | (page, none) => .ok page.text
  | (_, some e) => .error e

/-- The text of a program. -/
def listing (p : Program) : Except NameError String :=
  p.listingOn {}

end Program

end CaseSuite
