import CaseSuite.Proofs.Listing.Rendering
import CaseSuite.Proofs.Planning.Names
import Mathlib

/-!
# Names that cannot be written

A listing is cut short by the first name that has no form in generated code.  Names are met in the
order of the plans and their actions; within an action the name that it binds comes first.
-/

namespace CaseSuite

open Listing

/-- The names of an action, in the order in which they are written. -/
def Action.written (a : Action) : List String :=
  a.binds ++ a.reads

/-- The names of a plan, in the order in which they are written. -/
def Plan.written (p : Plan) : List String :=
  p.actions.flatMap Action.written

/-- The names of a suite, in the order in which they are written. -/
def Suite.written (s : Suite) : List String :=
  s.plans.flatMap Plan.written

namespace Listing

/-- The error about the first name that cannot be written. -/
def unwritable? (names : List String) : Option NameError :=
  (names.find? (· ∈ forbidden)).map NameError.mk

theorem unwritable?_append (names more : List String) :
    unwritable? (names ++ more) = (unwritable? names).or (unwritable? more) := by
  simp only [unwritable?, List.find?_append]
  cases names.find? (· ∈ forbidden) <;> rfl

theorem unwritable?_cons (name : String) (names : List String) :
    unwritable? (name :: names) = (unwritable? [name]).or (unwritable? names) :=
  unwritable?_append [name] names

theorem unwritable?_flatMap {α : Type} (f : α → List String) (xs : List α) :
    unwritable? (xs.flatMap f) = xs.findSome? fun x => unwritable? (f x) := by
  induction xs with
  | nil => rfl
  | cons x xs ih =>
      rw [List.flatMap_cons, unwritable?_append, ih, List.findSome?_cons]
      cases unwritable? (f x) <;> rfl

/-- A name is refused by the error about it and else written somehow. -/
theorem binding_cases (name : String) :
    (binding name = .error ⟨name⟩ ∧ unwritable? [name] = some ⟨name⟩) ∨
      ∃ text, binding name = .ok text ∧ unwritable? [name] = none := by
  by_cases hforbidden : name ∈ forbidden
  · exact Or.inl ⟨by rw [binding, if_pos hforbidden], by simp [unwritable?, hforbidden]⟩
  · right
    have hnone : unwritable? [name] = none := by simp [unwritable?, hforbidden]
    unfold binding
    rw [if_neg hforbidden]
    split
    · exact ⟨_, rfl, hnone⟩
    · exact ⟨_, rfl, hnone⟩

namespace Draft

theorem append_fault (a b : Draft) : (a ++ b).fault = a.fault.or b.fault := by
  change (append a b).fault = _
  rcases hfault : a.fault with _ | e
  · simp [append, hfault]
  · simp [append, hfault]

theorem concat_fault (drafts : List Draft) : (concat drafts).fault = drafts.findSome? fault := by
  induction drafts with
  | nil => rfl
  | cons d drafts ih =>
      have happend : concat (d :: drafts) = d ++ concat drafts := rfl
      rw [happend, append_fault, ih, List.findSome?_cons]
      cases d.fault <;> rfl

/-- Text around a text adds no fault. -/
theorem line_fault_bind_pure (text : Except NameError String) (f : String → String) :
    (line (text >>= fun t => pure (f t))).fault = (line text).fault := by
  cases text <;> rfl

/-- A line that begins with a name has the fault of that name, or else that of its rest. -/
theorem line_fault_binding {f : String → Except NameError String} {names : List String}
    (name : String) (h : ∀ text, (line (f text)).fault = unwritable? names) :
    (line (binding name >>= f)).fault = unwritable? (name :: names) := by
  rw [unwritable?_cons]
  rcases binding_cases name with ⟨hbinding, hname⟩ | ⟨text, hbinding, hname⟩
  · rw [hbinding, hname]
    rfl
  · rw [hbinding, hname, Option.none_or]
    exact h text

end Draft

end Listing

/-! ## Lines -/

theorem Operand.fault_text? (value : Operand) :
    (Draft.line value.text?).fault = unwritable? value.reads := by
  cases value with
  | text content => rfl
  | int n => rfl
  | float x => rfl
  | «variable» name => exact Draft.line_fault_binding name fun _ => rfl
  | call terminal method argument => exact Draft.line_fault_binding terminal fun _ => rfl

/-- The line of an action is cut short by the first of its names that cannot be written. -/
theorem Action.fault_text? (a : Action) :
    (Draft.line a.text?).fault = unwritable? a.written := by
  cases a with
  | start terminal => exact Draft.line_fault_binding terminal fun _ => rfl
  | bind target value =>
      refine Draft.line_fault_binding target fun text => ?_
      rw [Draft.line_fault_bind_pure]
      exact value.fault_text?
  | run value =>
      refine (Draft.line_fault_bind_pure _ _).trans ?_
      exact value.fault_text?
  | check relation left right =>
      exact Draft.line_fault_binding left fun _ => Draft.line_fault_binding right fun _ => rfl

/-! ## Listings -/

theorem Instr.fault_actions (actions : List Action) :
    (draftAll (actions.map .action)).fault = unwritable? (actions.flatMap Action.written) := by
  induction actions with
  | nil => rfl
  | cons a actions ih =>
      rw [List.map_cons, draftAll, Draft.append_fault, ih, draft, a.fault_text?,
        List.flatMap_cons, unwritable?_append]

theorem Plan.fault_routine (p : Plan) : p.routine.draft.fault = unwritable? p.written := by
  simp only [Routine.draft, Plan.routine, Instr.draftAll, Instr.draft, Instr.guardedDraft,
    Draft.append_fault, Draft.ofMarks_fault, Instr.fault_actions, Option.none_or, Option.or_none]
  rfl

/-- The program of a suite is cut short by the first name that cannot be written. -/
theorem Suite.fault_program (s : Suite) : s.program.draft.fault = unwritable? s.written := by
  have hroutines : (s.plans.map Plan.routine).map Routine.draft =
      s.plans.map fun p => p.routine.draft := List.map_map
  have hplans : ((s.plans.map fun p => p.routine.draft).findSome? Draft.fault) =
      unwritable? s.written := by
    rw [List.findSome?_map, Suite.written, unwritable?_flatMap]
    congr 1
    funext p
    exact p.fault_routine
  simp only [Program.draft, Suite.program, Draft.append_fault, Draft.ofMarks_fault,
    Draft.concat_fault, hroutines, hplans, Option.none_or, Option.or_none]

/-- A listing fails with the error about the first name that cannot be written. -/
theorem Suite.listing_eq_error_iff {s : Suite} {e : NameError} :
    s.program.listing = .error e ↔ unwritable? s.written = some e := by
  rw [← s.fault_program, Program.listing, Program.listingOn, Draft.writeTo]
  rcases s.program.draft.fault with _ | e'
  · simp
  · simp

end CaseSuite
