import CaseSuite.Proofs.Execution.Planning
import CaseSuite.Proofs.Text.Bytes
import Mathlib

/-!
# The functions of a suite

A case takes the next number when it is begun, and nothing else moves the numbering of cases on.  So
the cases of a file get consecutive numbers, and since the numbering outlives a refusal no number is
given out twice, however many files are planned one after the other.  The number is read off the
name of a function whatever the case is called, so no two functions have the same name.
-/

namespace CaseSuite
namespace Plan

/-! ## The number in a name -/

theorem functionName_toList (number : Nat) (name : String) :
    (functionName number name).toList =
      "test_".toList ++ (Nat.toDigits 10 number ++ '_' :: name.toList) := by
  simp only [functionName, String.toList_append, Nat.toList_repr, List.append_assoc]
  rfl

/-- Digits end at the underscore that follows them, so a name that goes on with digits of its own
does not change the number. -/
theorem functionName_injective
    {m n : Nat} {a b : String} (h : functionName m a = functionName n b) : m = n ∧ a = b := by
  have hlists := congrArg String.toList h
  rw [functionName_toList, functionName_toList] at hlists
  obtain ⟨hdigits, -, hname⟩ := Text.run_unique (fun _ => isDigit_of_mem_toDigits)
    (fun _ => isDigit_of_mem_toDigits) (by decide) (by decide) (List.append_cancel_left hlists)
  refine ⟨?_, String.toList_injective hname⟩
  rw [← Nat.ofDigitChars_ten_toDigits (n := m), hdigits, Nat.ofDigitChars_ten_toDigits]

/-! ## What moves the numbering on -/

/-- How the number of the next case after planning is related to the one before, also if planning
fails. -/
def Moves {α : Type} (r : Nat → Nat → Prop) (x : Planner α) : Prop :=
  ∀ n, r n.nextCase (x.runFrom n).2.nextCase

/-- The planner leaves the number of the next case alone. -/
abbrev KeepsNumber {α : Type} (x : Planner α) : Prop :=
  Moves Eq x

theorem Moves.bind {α β : Type} {r : Nat → Nat → Prop} [IsTrans Nat r] {x : Planner α}
    {f : α → Planner β} (hx : Moves r x) (hf : ∀ a, Moves r (f a)) : Moves r (x >>= f) := by
  intro n
  have hfirst := hx n
  rw [runFrom_bind]
  rcases hrun : x.runFrom n with ⟨e | a, n'⟩
  · rwa [hrun] at hfirst
  · rw [hrun] at hfirst
    exact IsTrans.trans _ _ _ hfirst (hf a n')

theorem keepsNumber_pure {α : Type} (a : α) : KeepsNumber (pure a) :=
  fun _ => rfl

theorem keepsNumber_throw {α : Type} (e : PlanError) : KeepsNumber (throw e : Planner α) :=
  fun _ => rfl

theorem KeepsNumber.map {α β : Type} {x : Planner α} {f : α → β} (hx : KeepsNumber x) :
    KeepsNumber (x >>= fun a => pure (f a)) :=
  Moves.bind hx fun a => keepsNumber_pure (f a)

theorem keepsNumber_userName (name : String) : KeepsNumber (userName name) := by
  intro n
  unfold userName
  split
  · rfl
  · rfl

theorem keepsNumber_bindTemporary (value : Operand) : KeepsNumber (bindTemporary value) :=
  fun _ => rfl

theorem keepsNumber_request (r : Request) : KeepsNumber (request r) := by
  refine KeepsNumber.map ?_
  cases r.target with
  | implicit => exact keepsNumber_pure _
  | named name => exact (keepsNumber_userName name).map

theorem keepsNumber_expression (e : Expr) : KeepsNumber (expression e) := by
  cases e with
  | text content => exact keepsNumber_bindTemporary _
  | number literal =>
      rcases hnumber : number? literal with _ | value
      · simp only [expression, hnumber]
        exact keepsNumber_throw _
      · simp only [expression, hnumber]
        exact keepsNumber_bindTemporary value
  | «variable» name =>
      exact (keepsNumber_userName name).bind fun _ => keepsNumber_bindTemporary _
  | request r =>
      exact (keepsNumber_request r).bind fun _ => (keepsNumber_bindTemporary _).map

theorem keepsNumber_declaration (names : List String) : KeepsNumber (declaration names) := by
  induction names with
  | nil => exact keepsNumber_pure _
  | cons name names ih => exact (keepsNumber_userName name).bind fun _ => ih.map

theorem keepsNumber_statement (s : Statement) : KeepsNumber (statement s) := by
  cases s with
  | request r => exact (keepsNumber_request r).map
  | declare names => exact keepsNumber_declaration names
  | assign target value =>
      exact (keepsNumber_expression value).bind fun _ => (keepsNumber_userName target).map
  | check relation left right =>
      exact (keepsNumber_expression left).bind fun _ => (keepsNumber_expression right).map

theorem keepsNumber_statements (ss : List Statement) : KeepsNumber (statements ss) := by
  induction ss with
  | nil => exact keepsNumber_pure _
  | cons s ss ih => exact (keepsNumber_statement s).bind fun _ => ih.map

/-- A case takes one number, also if it has no plan. -/
theorem testCase_nextCase (c : TestCase) (n : Numbering) :
    ((testCase c).runFrom n).2.nextCase = n.nextCase + 1 := by
  have hbody : KeepsNumber (statements c.statements >>= fun body =>
      pure (⟨functionName n.nextCase c.name, .start implicitTerminal :: body⟩ : Plan)) :=
    (keepsNumber_statements c.statements).map
  exact (hbody ⟨n.nextCase + 1, c.name, 0⟩).symm

theorem testCase_function
    {c : TestCase} {p : Plan} {n n' : Numbering} (h : (testCase c).runFrom n = (.ok p, n')) :
    p.function = functionName n.nextCase c.name := by
  obtain ⟨function, n₁, hbegin, hrest⟩ := runFrom_bind_ok h
  obtain ⟨body, n₂, -, hplan⟩ := runFrom_bind_ok hrest
  cases hbegin
  cases hplan
  rfl

/-! ## Files -/

/-- The names of the functions of cases that are numbered from a given number on. -/
def numberedNames (first : Nat) (cs : List TestCase) : List String :=
  (cs.zipIdx first).map fun (c, number) => functionName number c.name

theorem numberedNames_cons (first : Nat) (c : TestCase) (cs : List TestCase) :
    numberedNames first (c :: cs) = functionName first c.name :: numberedNames (first + 1) cs :=
  rfl

/-- No number is taken back. -/
theorem testCases_moves (cs : List TestCase) : Moves (· ≤ ·) (testCases cs) := by
  induction cs with
  | nil => exact fun _ => Nat.le_refl _
  | cons c cs ih =>
      refine Moves.bind ?_ fun p => Moves.bind ih fun _ _ => Nat.le_refl _
      intro n
      rw [testCase_nextCase]
      exact Nat.le_succ _

/-- The plans of cases are numbered from the number that comes next. -/
theorem testCases_functions
    {cs : List TestCase} {ps : List Plan} {n n' : Numbering}
    (h : (testCases cs).runFrom n = (.ok ps, n')) :
    ps.map Plan.function = numberedNames n.nextCase cs ∧
      n'.nextCase = n.nextCase + cs.length := by
  induction cs generalizing ps n n' with
  | nil =>
      cases h
      exact ⟨rfl, rfl⟩
  | cons c cs ih =>
      obtain ⟨p, n₁, hp, hrest⟩ := runFrom_bind_ok h
      obtain ⟨more, n₂, hmore, hplans⟩ := runFrom_bind_ok hrest
      cases hplans
      have hnumber := testCase_nextCase c n
      rw [hp] at hnumber
      obtain ⟨hnames, hlast⟩ := ih hmore
      rw [hnumber] at hnames hlast
      refine ⟨?_, ?_⟩
      · rw [List.map_cons, testCase_function hp, hnames, numberedNames_cons]
      · rw [hlast, List.length_cons]
        omega

theorem mem_numberedNames
    {first : Nat} {cs : List TestCase} {f : String} (h : f ∈ numberedNames first cs) :
    ∃ number name, first ≤ number ∧ number < first + cs.length ∧ f = functionName number name := by
  obtain ⟨⟨c, number⟩, hmem, rfl⟩ := List.mem_map.mp h
  obtain ⟨hlow, hhigh, -⟩ := List.mem_zipIdx hmem
  exact ⟨number, c.name, hlow, hhigh, rfl⟩

theorem nodup_numberedNames (first : Nat) (cs : List TestCase) :
    (numberedNames first cs).Nodup := by
  induction cs generalizing first with
  | nil => exact List.nodup_nil
  | cons c cs ih =>
      rw [numberedNames_cons, List.nodup_cons]
      refine ⟨?_, ih (first + 1)⟩
      intro hmem
      obtain ⟨number, name, hlow, -, hname⟩ := mem_numberedNames hmem
      have hnumber := (functionName_injective hname).1
      omega

/-! ## One file after the other -/

/-- What comes of files that are planned one after the other.  Each goes on with the numbering that
the one before it left, also if that one was refused. -/
def suites : List CaseFile → Numbering → List (Except PlanError Suite)
  | [], _ => []
  | file :: files, n =>
      ((suite file).runFrom n).1 :: suites files ((suite file).runFrom n).2

/-- The names of the functions of a program, if a file was not refused. -/
def functionNames : Except PlanError Suite → List String
  | .ok s => s.program.routines.map Routine.function
  | .error _ => []

theorem functionNames_ok (s : Suite) : functionNames (.ok s) = s.plans.map Plan.function := by
  simp only [functionNames, Suite.program, List.map_map]
  rfl

/-- The functions of a file that was not refused stand in the order of its cases, and their numbers
are consecutive. -/
def Consecutive (file : CaseFile) (result : Except PlanError Suite) : Prop :=
  ∀ s, result = .ok s → ∃ first, functionNames (.ok s) = numberedNames first file.cases

/-- What one file does to the numbering: its functions take the numbers from the next one on and
below the one that comes next afterwards. -/
theorem suite_functions
    {file : CaseFile} {result : Except PlanError Suite} {n n' : Numbering}
    (h : (suite file).runFrom n = (result, n')) :
    n.nextCase ≤ n'.nextCase ∧ ∀ s, result = .ok s →
      functionNames (.ok s) = numberedNames n.nextCase file.cases ∧
        n'.nextCase = n.nextCase + file.cases.length := by
  have hmoves := testCases_moves file.cases n
  rw [suite, runFrom_bind] at h
  rcases hrun : (testCases file.cases).runFrom n with ⟨e | ps, n₁⟩
  · simp only [hrun] at h hmoves
    cases h
    refine ⟨hmoves, ?_⟩
    intro s hs
    cases hs
  · simp only [hrun] at h hmoves
    cases h
    refine ⟨hmoves, ?_⟩
    intro s hs
    obtain rfl := Except.ok.inj hs
    rw [functionNames_ok]
    exact testCases_functions hrun

/-- A function of a file has one of the numbers that the file took. -/
theorem exists_number_of_suite
    {file : CaseFile} {result : Except PlanError Suite} {n n' : Numbering}
    (h : (suite file).runFrom n = (result, n')) {f : String} (hf : f ∈ functionNames result) :
    ∃ number name, n.nextCase ≤ number ∧ number < n'.nextCase ∧ f = functionName number name := by
  rcases result with e | s
  · simp [functionNames] at hf
  · obtain ⟨hnames, hlast⟩ := (suite_functions h).2 s rfl
    rw [hnames] at hf
    rw [hlast]
    exact mem_numberedNames hf

/-- No function of later files has a number from before. -/
theorem exists_number_of_suites
    {files : List CaseFile} {n : Numbering} {f : String}
    (hf : f ∈ (suites files n).flatMap functionNames) :
    ∃ number name, n.nextCase ≤ number ∧ f = functionName number name := by
  induction files generalizing n with
  | nil => simp [suites] at hf
  | cons file files ih =>
      rcases hrun : (suite file).runFrom n with ⟨result, n'⟩
      simp only [suites, hrun, List.flatMap_cons, List.mem_append] at hf
      rcases hf with hfirst | hlater
      · obtain ⟨number, name, hlow, -, rfl⟩ := exists_number_of_suite hrun hfirst
        exact ⟨number, name, hlow, rfl⟩
      · obtain ⟨number, name, hlow, rfl⟩ := ih hlater
        exact ⟨number, name, (suite_functions hrun).1.trans hlow, rfl⟩

theorem nodup_functionNames
    {file : CaseFile} {result : Except PlanError Suite} {n n' : Numbering}
    (h : (suite file).runFrom n = (result, n')) : (functionNames result).Nodup := by
  rcases result with e | s
  · exact List.nodup_nil
  · rw [((suite_functions h).2 s rfl).1]
    exact nodup_numberedNames _ _

/--
Functions never share a name.  Whatever files are planned one after the other, from whatever
numbering on, and whichever of them are refused on the way: all functions of all programs that come
out have different names, and those of one program stand in the order of its cases with consecutive
numbers.
-/
theorem functions_are_distinct (files : List CaseFile) (n : Numbering) :
    ((suites files n).flatMap functionNames).Nodup ∧
      List.Forall₂ Consecutive files (suites files n) := by
  induction files generalizing n with
  | nil => exact ⟨List.nodup_nil, List.Forall₂.nil⟩
  | cons file files ih =>
      rcases hrun : (suite file).runFrom n with ⟨result, n'⟩
      obtain ⟨hnodup, hconsecutive⟩ := ih n'
      simp only [suites, hrun, List.flatMap_cons]
      constructor
      · apply (nodup_functionNames hrun).append hnodup
        intro f hfirst hlater
        obtain ⟨number, name, -, hhigh, rfl⟩ := exists_number_of_suite hrun hfirst
        obtain ⟨number', name', hlow, hname⟩ := exists_number_of_suites hlater
        have hnumber := (functionName_injective hname).1
        omega
      · refine List.Forall₂.cons ?_ hconsecutive
        intro s hs
        exact ⟨n.nextCase, ((suite_functions hrun).2 s hs).1⟩

/-- Two files with the same case name; a case of the first one declares a reserved name. -/
def refusedFirst : List CaseFile :=
  [⟨"", [⟨"1_a", 1, []⟩, ⟨"a", 2, [.declare ["Ok"]]⟩]⟩, ⟨"", [⟨"a", 1, []⟩, ⟨"_a", 2, []⟩]⟩]

/-- The refused file has taken two numbers, which the file after it does not use again. -/
theorem functions_are_distinct_refusedFirst :
    (suites refusedFirst {}).map functionNames = [[], ["test_3_a", "test_4__a"]] ∧
      ((suites refusedFirst {}).flatMap functionNames).Nodup :=
  ⟨rfl, (functions_are_distinct refusedFirst {}).1⟩

end Plan
end CaseSuite
