import CaseSuite.Proofs.Execution.Planning
import CaseSuite.Proofs.Scanning.Lexemes
import Mathlib

/-!
# Names in plans

Which names are reserved is said here apart from the planner's test for them.  An action binds and
reads names.  Of the reserved names, the actions of an accepted request or expression read only the
implicit terminal; the temporaries are bound and read where the planner puts them and nowhere else.
-/

namespace CaseSuite

/-! ## Reserved names -/

namespace Plan

/-- A name of the form that temporaries have: `tmp_` and digits. -/
def IsTemporary (name : String) : Prop :=
  ∃ digits, Token.IsDigits digits ∧ name.toList = "tmp_".toList ++ digits

/-- A name that a generated case uses itself. -/
def Reserved (name : String) : Prop :=
  name ∈ ["terminals", "outcome", "case_terminal", "CONFIG", "Some", "None", "Ok", "Err"] ∨
    IsTemporary name

theorem isTemporary_iff {name : String} : isTemporary name = true ↔ IsTemporary name := by
  have hstem : temporaryStem.toList = "tmp_".toList := rfl
  simp only [isTemporary, hstem, Bool.and_eq_true, List.isPrefixOf_iff_prefix, Bool.not_eq_true',
    List.isEmpty_eq_false_iff, List.all_eq_true]
  constructor
  · rintro ⟨⟨⟨digits, hname⟩, hsome⟩, hall⟩
    rw [← hname, List.drop_left] at hsome hall
    exact ⟨digits, ⟨hsome, hall⟩, hname.symm⟩
  · rintro ⟨digits, ⟨hsome, hall⟩, hname⟩
    rw [hname, List.drop_left]
    exact ⟨⟨List.prefix_append _ _, hsome⟩, hall⟩

/-- The planner refuses the reserved names. -/
theorem isReserved_iff {name : String} : isReserved name = true ↔ Reserved name := by
  have hnames : reservedNames =
      ["terminals", "outcome", "case_terminal", "CONFIG", "Some", "None", "Ok", "Err"] := rfl
  rw [isReserved, Bool.or_eq_true, isTemporary_iff, decide_eq_true_eq, hnames]
  exact Iff.rfl

instance : DecidablePred IsTemporary :=
  fun _ => decidable_of_iff _ isTemporary_iff

instance : DecidablePred Reserved :=
  fun _ => decidable_of_iff _ isReserved_iff

theorem not_reserved_iff {name : String} : ¬ Reserved name ↔ isReserved name = false := by
  rw [← isReserved_iff, Bool.not_eq_true]

theorem IsTemporary.reserved {name : String} (h : IsTemporary name) : Reserved name :=
  Or.inr h

@[simp] theorem isTemporary_temporary (n : Nat) : IsTemporary (temporary n) := by
  refine ⟨Nat.toDigits 10 n, ⟨Nat.toDigits_ne_nil, fun c hc => isDigit_of_mem_toDigits hc⟩, ?_⟩
  simp [temporary, temporaryStem]

@[simp] theorem reserved_temporary (n : Nat) : Reserved (temporary n) :=
  (isTemporary_temporary n).reserved

@[simp] theorem reserved_implicitTerminal : Reserved implicitTerminal := by
  decide

@[simp] theorem not_isTemporary_implicitTerminal : ¬ IsTemporary implicitTerminal := by
  decide

end Plan

/-! ## Names of actions -/

/-- The name that an action binds, if it binds one. -/
def Action.binds : Action → List String
  | .start terminal => [terminal]
  | .bind target _ => [target]
  | .run _ | .check _ _ _ => []

/-- The name that an operand reads, if it reads one. -/
def Operand.reads : Operand → List String
  | .text _ | .int _ | .float _ => []
  | .variable name => [name]
  | .call terminal _ _ => [terminal]

/-- The names that an action reads. -/
def Action.reads : Action → List String
  | .start _ => []
  | .bind _ value | .run value => value.reads
  | .check _ left right => [left, right]

namespace Plan

/-- Of the reserved names only the implicit terminal is among these. -/
def Modest (names : List String) : Prop :=
  ∀ name ∈ names, Reserved name → name = implicitTerminal

theorem modest_append {names more : List String} :
    Modest (names ++ more) ↔ Modest names ∧ Modest more := by
  simp only [Modest, List.mem_append, or_imp, forall_and]

theorem modest_singleton {name : String} (h : ¬ Reserved name) : Modest [name] := by
  intro other hother hreserved
  obtain rfl := List.mem_singleton.mp hother
  exact absurd hreserved h

theorem Modest.filter_isTemporary {names : List String} (h : Modest names) :
    names.filter IsTemporary = [] := by
  rw [List.filter_eq_nil_iff]
  intro name hname htemporary
  have htemporary : IsTemporary name := by simpa using htemporary
  rw [h name hname htemporary.reserved] at htemporary
  exact not_isTemporary_implicitTerminal htemporary

/-! ## Names of requests and expressions -/

theorem Addressable.modest {target : Target} (h : Addressable target) :
    Modest [terminalName target] := by
  cases target with
  | implicit =>
      intro name hname _
      exact List.mem_singleton.mp hname
  | named name => exact modest_singleton (not_reserved_iff.mpr (h name rfl))

/-- A request binds nothing and reads its terminal. -/
theorem names_of_mem_sending {r : Request} {a : Action} (h : a ∈ sending r) :
    a.binds = [] ∧ a.reads = [terminalName r.target] := by
  simp only [sending, List.mem_append, List.mem_singleton, List.mem_ite_nil_right] at h
  rcases h with (rfl | ⟨-, rfl⟩) | ⟨-, rfl⟩ <;> exact ⟨rfl, rfl⟩

theorem binds_sending (r : Request) : (sending r).flatMap Action.binds = [] :=
  List.flatMap_eq_nil_iff.mpr fun _ ha => (names_of_mem_sending ha).1

theorem modest_sending {r : Request} (h : Addressable r.target) :
    Modest ((sending r).flatMap Action.reads) := by
  intro name hname
  obtain ⟨a, ha, hread⟩ := List.mem_flatMap.mp hname
  rw [(names_of_mem_sending ha).2] at hread
  exact h.modest name hread

theorem binds_preparation (e : Expr) : (preparation e).flatMap Action.binds = [] := by
  cases e with
  | request r => exact binds_sending r
  | _ => rfl

theorem reads_answer (r : Request) : (answer r).reads = [terminalName r.target] := by
  unfold answer
  split <;> rfl

theorem reads_of_number? {literal : String} {value : Operand} (h : number? literal = some value) :
    value.reads = [] := by
  unfold number? at h
  split at h
  · split at h
    · split at h
      · cases h
        rfl
      · cases h
    · cases h
  · obtain ⟨n, -, rfl⟩ := Option.map_eq_some_iff.mp h
    rfl

/-- What evaluates an expression reads no temporary. -/
theorem Denotes.modest {e : Expr} {value : Operand} (h : Denotes e value) :
    Modest ((preparation e).flatMap Action.reads) ∧ Modest value.reads := by
  have hnone : Modest [] := by simp [Modest]
  cases h with
  | text => exact ⟨hnone, hnone⟩
  | number hnumber =>
      rw [reads_of_number? hnumber]
      exact ⟨hnone, hnone⟩
  | «variable» free => exact ⟨hnone, modest_singleton (not_reserved_iff.mpr free)⟩
  | request addressable =>
      rw [reads_answer]
      exact ⟨modest_sending addressable, addressable.modest⟩

end Plan
end CaseSuite
