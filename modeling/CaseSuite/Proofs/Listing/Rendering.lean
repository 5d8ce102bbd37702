import CaseSuite.Listing.Program
import Mathlib.Data.List.Forall2
import Mathlib.Tactic.Common

/-!
# What a page holds

A page grows by the text of each mark at the depth reached, so the text of a listing is a function
of its marks.  The listing of a suite is its opening with the configuration, the function of each
plan and its closing; within a function only the lines of the actions depend on more than its name.
-/

namespace CaseSuite
namespace Listing

/-! ## Pages -/

namespace Mark

/-- The depth after a mark. -/
def after (depth : Nat) : Mark → Nat
  | line _ | blank => depth
  | opening _ => depth + 1
  | closing _ => depth - 1
  | reopening _ => depth - 1 + 1

/-- A line at a depth. -/
def lineText (depth : Nat) (text : String) : List Char :=
  List.replicate (4 * depth) ' ' ++ text.toList ++ ['\n']

/-- The text of a mark at a depth. -/
def render (depth : Nat) : Mark → List Char
  | line text | opening text => lineText depth text
  | blank => ['\n']
  | closing text | reopening text => lineText (depth - 1) text

end Mark

/-- The depth after marks. -/
def after (depth : Nat) (marks : List Mark) : Nat :=
  marks.foldl Mark.after depth

/-- The text of marks from a depth on. -/
def render : Nat → List Mark → List Char
  | _, [] => []
  | depth, m :: ms => m.render depth ++ render (m.after depth) ms

@[simp] theorem render_nil (depth : Nat) : render depth [] = [] :=
  rfl

@[simp] theorem render_cons (depth : Nat) (m : Mark) (ms : List Mark) :
    render depth (m :: ms) = m.render depth ++ render (m.after depth) ms :=
  rfl

@[simp] theorem after_append (depth : Nat) (ms ns : List Mark) :
    after depth (ms ++ ns) = after (after depth ms) ns := by
  simp [after]

@[simp] theorem render_append (depth : Nat) (ms ns : List Mark) :
    render depth (ms ++ ns) = render depth ms ++ render (after depth ms) ns := by
  induction ms generalizing depth with
  | nil => simp [after]
  | cons m ms ih => simp [ih, after]

theorem write_text (p : Page) (m : Mark) :
    (p.write m).text.toList = p.text.toList ++ m.render p.depth := by
  cases m <;>
    simp [Page.write, Page.line, Page.indent, Page.dedent, Page.indentation, Mark.render,
      Mark.lineText]

theorem write_depth (p : Page) (m : Mark) : (p.write m).depth = m.after p.depth := by
  cases m <;> rfl

/-- Marks add their text to a page. -/
theorem writeAll_text (p : Page) (ms : List Mark) :
    (p.writeAll ms).text.toList = p.text.toList ++ render p.depth ms := by
  induction ms generalizing p with
  | nil => simp [Page.writeAll]
  | cons m ms ih =>
      have hmore := ih (p.write m)
      rw [write_text, write_depth] at hmore
      simpa [Page.writeAll] using hmore

/-! ## Drafts -/

namespace Draft

@[simp] theorem append_fault_eq_none {a b : Draft} :
    (a ++ b).fault = none ↔ a.fault = none ∧ b.fault = none := by
  change (append a b).fault = none ↔ _
  rcases hfault : a.fault with _ | e
  · simp [append, hfault]
  · simp [append, hfault]

theorem eq_ofMarks {d : Draft} (h : d.fault = none) : d = ofMarks d.marks := by
  obtain ⟨marks, fault⟩ := d
  cases h
  rfl

@[simp] theorem ofMarks_fault (marks : List Mark) : (ofMarks marks).fault = none :=
  rfl

@[simp] theorem ofMarks_marks (marks : List Mark) : (ofMarks marks).marks = marks :=
  rfl

theorem marks_append {a b : Draft} (h : a.fault = none) : (a ++ b).marks = a.marks ++ b.marks := by
  change (append a b).marks = _
  simp [append, h]

@[simp] theorem ofMarks_append (ms ns : List Mark) :
    ofMarks ms ++ ofMarks ns = ofMarks (ms ++ ns) :=
  rfl

/-- Drafts in order have no fault only if none of them has one. -/
theorem concat_eq_ofMarks {drafts : List Draft} (h : (concat drafts).fault = none) :
    (∀ d ∈ drafts, d.fault = none) ∧ concat drafts = ofMarks (drafts.flatMap marks) := by
  induction drafts with
  | nil => exact ⟨by simp, rfl⟩
  | cons d drafts ih =>
      have happend : concat (d :: drafts) = d ++ concat drafts := rfl
      rw [happend, append_fault_eq_none] at h
      obtain ⟨hall, hmarks⟩ := ih h.2
      constructor
      · simpa using ⟨h.1, hall⟩
      · rw [happend, hmarks, eq_ofMarks h.1, ofMarks_append, List.flatMap_cons, ofMarks_marks]

end Draft

end Listing

open Listing

/-- A listing is the text of a draft without a fault. -/
theorem Program.draft_of_listing {p : Program} {code : String} (h : p.listing = .ok code) :
    p.draft.fault = none ∧ code.toList = render 0 p.draft.marks := by
  rw [listing, listingOn, Draft.writeTo] at h
  split at h
  · rename_i page heq
    obtain ⟨rfl, hnone⟩ := Prod.mk.inj heq
    cases h
    refine ⟨hnone, ?_⟩
    rw [writeAll_text]
    rfl
  · cases h

/-! ## The function of a plan -/

/-- The lines of actions, if every name in them can be written. -/
abbrev Spelled (actions : List Action) (lines : List String) : Prop :=
  List.Forall₂ (fun a line => a.text? = .ok line) actions lines

/-- Actions without a fault are written line by line. -/
theorem Instr.draftAll_actions
    {actions : List Action} (h : (draftAll (actions.map .action)).fault = none) :
    ∃ lines, Spelled actions lines ∧
      draftAll (actions.map .action) = Draft.ofMarks (lines.map .line) := by
  induction actions with
  | nil => exact ⟨[], List.Forall₂.nil, rfl⟩
  | cons a actions ih =>
      have hcons : draftAll ((a :: actions).map .action) =
          Draft.line a.text? ++ draftAll (actions.map .action) := by
        simp [draftAll, draft]
      rw [hcons, Draft.append_fault_eq_none] at h
      obtain ⟨lines, hlines, hmarks⟩ := ih h.2
      rcases htext : a.text? with e | line
      · rw [htext] at h
        exact absurd h.1 (by simp [Draft.line])
      · refine ⟨line :: lines, List.Forall₂.cons htext hlines, ?_⟩
        rw [hcons, htext, hmarks]
        rfl

namespace Plan

/-- The marks of a function before its first action. -/
def headMarks (function : String) : List Mark :=
  [.blank, .opening ("pub fn " ++ function ++ "(&self) -> CaseResult \x7b"),
    .line "let terminals = TerminalRegistry::new();",
    .opening "let outcome = match guarded(|| -> CaseResult \x7b"]

/-- The marks of a function after its last action. -/
def tailMarks (function : String) : List Mark :=
  Instr.guardMarks function ++ (Instr.teardownMarks ++ [.line "outcome", .closing "\x7d"])

/-- The text of a function whose actions have given lines. -/
def functionText (function : String) (lines : List String) : List Char :=
  render 1 (headMarks function) ++
    (lines.flatMap (Mark.lineText 3) ++ render 3 (tailMarks function))

end Plan

theorem render_lines (depth : Nat) (lines : List String) :
    render depth (lines.map .line) = lines.flatMap (Mark.lineText depth) ∧
      after depth (lines.map .line) = depth := by
  induction lines with
  | nil => exact ⟨rfl, rfl⟩
  | cons line lines ih =>
      constructor
      · simpa [Mark.render, Mark.after] using ih.1
      · exact ih.2

/-- The function of a plan without a fault, written inside the implementation block. -/
theorem Plan.render_routine
    {p : Plan} (h : p.routine.draft.fault = none) :
    ∃ lines, Spelled p.actions lines ∧
      render 1 p.routine.draft.marks = functionText p.function lines ∧
      after 1 p.routine.draft.marks = 1 := by
  have hbody : (Instr.draftAll (p.actions.map .action)).fault = none := by
    simp only [Routine.draft, Plan.routine, Instr.draftAll, Instr.draft, Instr.guardedDraft,
      Draft.append_fault_eq_none] at h
    tauto
  obtain ⟨lines, hlines, hmarks⟩ := Instr.draftAll_actions hbody
  have hempty : ({} : Draft) = Draft.ofMarks [] := rfl
  have hall : p.routine.draft.marks =
      headMarks p.function ++ (lines.map .line ++ tailMarks p.function) := by
    simp [Routine.draft, Plan.routine, Instr.draftAll, Instr.draft, Instr.guardedDraft, hmarks,
      hempty, headMarks, tailMarks]
  have hdepth : after 1 (headMarks p.function) = 3 := rfl
  obtain ⟨htext, hstays⟩ := render_lines 3 lines
  refine ⟨lines, hlines, ?_, ?_⟩
  · rw [hall, render_append, hdepth, render_append, htext, hstays, functionText]
  · rw [hall, after_append, hdepth, after_append, hstays]
    rfl

/-! ## The listing of a suite -/

namespace Suite

/-- The marks of a listing before the configuration. -/
def openingMarks : List Mark :=
  [.line "// Generated by case-compiler. Do not edit.",
    .line "#![allow(unused_variables, non_snake_case)]", .blank, .line "use std::sync::Arc;",
    .blank, .line "use case_compiler::runtime::prelude::*;", .blank]

/-- The marks of a listing between the configuration and the first function. -/
def middleMarks : List Mark :=
  [.blank, .opening "pub struct GeneratedCases \x7b", .line "env: CaseEnv,", .closing "\x7d",
    .blank, .opening "impl GeneratedCases \x7b",
    .opening "pub fn new(connector: Arc<dyn Connector>) -> Self \x7b", .opening "Self \x7b",
    .line "env: CaseEnv::new(CONFIG, connector),", .closing "\x7d", .closing "\x7d"]

/-- The text of a listing up to the literal of the configuration. -/
def openingText : List Char :=
  render 0 openingMarks ++ "pub const CONFIG: &str = ".toList

/-- The text of a listing from the end of that literal up to the first function. -/
def middleText : List Char :=
  ";\n".toList ++ render 0 middleMarks

/-- The text of a listing after the last function. -/
def closingText (plans : List Plan) : List Char :=
  render 1 (Program.closing (plans.map Plan.routine))

theorem render_opening (config : String) :
    render 0 (Program.opening config) =
      openingText ++ ((Text.rawLiteral config).toList ++ middleText) ∧
    after 0 (Program.opening config) = 1 := by
  have hline : Mark.lineText 0 ("pub const CONFIG: &str = " ++ Text.rawLiteral config ++ ";") =
      "pub const CONFIG: &str = ".toList ++ ((Text.rawLiteral config).toList ++ ";\n".toList) := by
    simp only [Mark.lineText, String.toList_append, List.append_assoc]
    rfl
  have hsplit : Program.opening config = openingMarks ++
      .line ("pub const CONFIG: &str = " ++ Text.rawLiteral config ++ ";") :: middleMarks := rfl
  constructor
  · rw [hsplit, render_append, render_cons]
    change _ ++ (Mark.lineText 0 _ ++ _) = _
    rw [hline, openingText, middleText]
    simp only [List.append_assoc]
    rfl
  · rfl

/-- The functions of plans. -/
inductive FunctionsText : List Plan → List Char → Prop
  | nil : FunctionsText [] []
  | cons {p : Plan} {ps : List Plan} {lines : List String} {text : List Char}
      (spelled : Spelled p.actions lines) (rest : FunctionsText ps text) :
      FunctionsText (p :: ps) (Plan.functionText p.function lines ++ text)

theorem render_functions
    {plans : List Plan} (h : ∀ p ∈ plans, p.routine.draft.fault = none) :
    ∃ text, FunctionsText plans text ∧
      render 1 (plans.flatMap fun p => p.routine.draft.marks) = text ∧
      after 1 (plans.flatMap fun p => p.routine.draft.marks) = 1 := by
  induction plans with
  | nil => exact ⟨[], FunctionsText.nil, rfl, rfl⟩
  | cons p plans ih =>
      obtain ⟨text, htext, hrender, hdepth⟩ := ih fun q hq => h q (List.mem_cons_of_mem p hq)
      obtain ⟨lines, hlines, hfunction, hback⟩ := Plan.render_routine (h p List.mem_cons_self)
      refine ⟨_, FunctionsText.cons hlines htext, ?_, ?_⟩
      · rw [List.flatMap_cons, render_append, hback, hfunction, hrender]
      · rw [List.flatMap_cons, after_append, hback, hdepth]

/-- A listing holds the configuration and the functions, each in its place. -/
theorem listing_eq
    {s : Suite} {code : String} (h : s.program.listing = .ok code) :
    ∃ functions, FunctionsText s.plans functions ∧
      code.toList = openingText ++ ((Text.rawLiteral s.config).toList ++
        (middleText ++ (functions ++ closingText s.plans))) := by
  obtain ⟨hnone, hcode⟩ := Program.draft_of_listing h
  simp only [Program.draft, Draft.append_fault_eq_none, Draft.ofMarks_fault, true_and,
    and_true] at hnone
  obtain ⟨hall, hmarks⟩ := Draft.concat_eq_ofMarks hnone
  have hplans : ∀ p ∈ s.plans, p.routine.draft.fault = none := by
    intro p hp
    apply hall
    exact List.mem_map_of_mem (List.mem_map_of_mem hp)
  obtain ⟨functions, hfunctions, hrender, hdepth⟩ := render_functions hplans
  obtain ⟨hopening, hone⟩ := render_opening s.config
  refine ⟨functions, hfunctions, ?_⟩
  have hflat : s.program.draft.marks = Program.opening s.config ++
      (s.plans.flatMap fun p => p.routine.draft.marks) ++
      Program.closing (s.plans.map Plan.routine) := by
    rw [Program.draft, hmarks]
    simp [Suite.program, List.flatMap_map, Function.comp_def]
  rw [hcode, hflat]
  simp only [render_append, hopening, hone, hrender, hdepth, closingText,
    List.append_assoc]

end Suite

end CaseSuite
