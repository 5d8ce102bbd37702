import CaseSuite.Proofs.Execution.Deadlock
import CaseSuite.Proofs.Execution.Evaluation
import CaseSuite.Proofs.Planning.Names
import Mathlib

/-!
# Temporaries of plans

The planner numbers the expressions of a case.  The actions of a statement bind the temporaries that
come next, in order and each once, and no reserved name besides; they read each of them once, and
only where it is bound.  Statements that follow each other go on with the numbering, so the same
holds of a whole case.  The calls that a plan makes are those of its case, each on its own terminal.
-/

namespace CaseSuite

/-- The expressions of a case, in the order in which they are evaluated. -/
def TestCase.exprs (c : TestCase) : List Expr :=
  c.statements.flatMap Statement.exprs

/-! ## Calls -/

/-- The methods by which a request is sent. -/
def Request.sends (r : Request) : List Method :=
  [.execute] ++ (if r.fetch then [.store] else []) ++ (if r.timing = .sync then [.wait] else [])

/-- The method by which the answer to a request is read. -/
def Request.reader (r : Request) : Method :=
  if r.fetch then .rows else .code

/-- The calls that an expression makes, each with its target. -/
def Expr.outgoing : Expr → List (Target × Method)
  | .request r => (r.sends ++ [r.reader]).map (r.target, ·)
  | .text _ | .number _ | .variable _ => []

/-- The calls that a statement makes, each with its target. -/
def Statement.outgoing : Statement → List (Target × Method)
  | .request r => r.sends.map (r.target, ·)
  | .declare _ => []
  | .assign _ value => value.outgoing
  | .check _ left right => left.outgoing ++ right.outgoing

/-- The calls that a case makes, each with its target. -/
def TestCase.outgoing (c : TestCase) : List (Target × Method) :=
  c.statements.flatMap Statement.outgoing

/-- The call that an operand makes, with the name of the terminal. -/
def Operand.call? : Operand → Option (String × Method)
  | .call terminal method _ => some (terminal, method)
  | .text _ | .int _ | .float _ | .variable _ => none

/-- The call that an action makes, with the name of the terminal. -/
def Action.call? : Action → Option (String × Method)
  | .bind _ value | .run value => value.call?
  | .start _ | .check _ _ _ => none

namespace Plan

/-- A call with the name of its terminal. -/
def addressed (call : Target × Method) : String × Method :=
  (terminalName call.1, call.2)

theorem call?_sending (r : Request) :
    (sending r).filterMap Action.call? = (r.sends.map (r.target, ·)).map addressed := by
  unfold sending Request.sends
  by_cases hfetch : r.fetch = true <;> by_cases hsync : r.timing = .sync <;>
    simp [hfetch, hsync, Action.call?, Operand.call?, addressed]

theorem call?_answer (r : Request) :
    (answer r).call? = some (addressed (r.target, r.reader)) := by
  unfold answer Request.reader
  by_cases hfetch : r.fetch = true <;> simp [hfetch, Operand.call?, addressed]

theorem call?_of_number? {literal : String} {value : Operand} (h : number? literal = some value) :
    value.call? = none := by
  cases value with
  | call terminal method argument => exact absurd rfl (ne_call_of_number? h _ _ _)
  | _ => rfl

/-- The evaluation of an expression makes the calls of the expression. -/
theorem Denotes.calls {e : Expr} {value : Operand} (h : Denotes e value) (name : String) :
    (preparation e ++ [Action.bind name value]).filterMap Action.call? =
      e.outgoing.map addressed := by
  rw [List.filterMap_append]
  cases h with
  | text => rfl
  | number hnumber => simp [preparation, Action.call?, call?_of_number? hnumber, Expr.outgoing]
  | «variable» => rfl
  | request =>
      simp [preparation, call?_sending, Action.call?, call?_answer, Expr.outgoing]

theorem Planned.calls {k : Nat} {s : Statement} {as : List Action} (h : Planned k s as) :
    as.filterMap Action.call? = s.outgoing.map addressed := by
  cases h with
  | request => exact call?_sending _
  | declare =>
      refine List.filterMap_eq_nil_iff.mpr fun a ha => ?_
      obtain ⟨name, -, rfl⟩ := List.mem_map.mp ha
      rfl
  | assign denotes =>
      rw [List.filterMap_append, denotes.calls]
      exact List.append_nil _
  | check first second =>
      rw [List.filterMap_append, List.filterMap_append, first.calls, second.calls,
        ← List.map_append]
      exact List.append_nil _

theorem PlannedAll.calls {ss : List Statement} {as : List Action} (h : PlannedAll ss as) :
    as.filterMap Action.call? = (ss.flatMap Statement.outgoing).map addressed := by
  induction h with
  | nil => rfl
  | cons first _ ih =>
      rw [List.filterMap_append, first.calls, ih, List.flatMap_cons, List.map_append]

/-! ## Reading what is bound -/

/-- Every reserved name that the actions read is in scope where they read it. -/
def ReadsBound (scope : List String) : List Action → Prop
  | [] => True
  | a :: as =>
      (∀ name ∈ a.reads, Reserved name → name ∈ scope) ∧ ReadsBound (scope ++ a.binds) as

theorem readsBound_append {scope : List String} {as bs : List Action} :
    ReadsBound scope (as ++ bs) ↔
      ReadsBound scope as ∧ ReadsBound (scope ++ as.flatMap Action.binds) bs := by
  induction as generalizing scope with
  | nil => simp [ReadsBound]
  | cons a as ih =>
      rw [List.cons_append, ReadsBound, ReadsBound, ih, List.flatMap_cons, List.append_assoc,
        and_assoc]

/-- Actions that read no temporary need no more than the implicit terminal. -/
theorem readsBound_of_modest {scope : List String} {as : List Action}
    (h : Modest (as.flatMap Action.reads)) (hscope : implicitTerminal ∈ scope) :
    ReadsBound scope as := by
  induction as generalizing scope with
  | nil => trivial
  | cons a as ih =>
      rw [List.flatMap_cons, modest_append] at h
      constructor
      · intro name hname hreserved
        rw [h.1 name hname hreserved]
        exact hscope
      · exact ih h.2 (List.mem_append_left _ hscope)

theorem readsBound_singleton {scope : List String} {a : Action} :
    ReadsBound scope [a] ↔ ∀ name ∈ a.reads, Reserved name → name ∈ scope := by
  simp [ReadsBound]

/-! ## Temporaries in order -/

/-- The names of a number of temporaries that come after others. -/
def temporariesAfter (k n : Nat) : List String :=
  (List.range' (k + 1) n).map temporary

theorem temporariesAfter_append (k n n' : Nat) :
    temporariesAfter k n ++ temporariesAfter (k + n) n' = temporariesAfter k (n + n') := by
  rw [temporariesAfter, temporariesAfter, temporariesAfter, ← List.map_append,
    Nat.add_right_comm k n 1, List.range'_append_1]

theorem nodup_temporariesAfter (k n : Nat) : (temporariesAfter k n).Nodup :=
  List.Nodup.map (fun _ _ => temporary_injective) List.nodup_range'

theorem isTemporary_of_mem_temporariesAfter {k n : Nat} {name : String}
    (h : name ∈ temporariesAfter k n) : IsTemporary name := by
  obtain ⟨i, -, rfl⟩ := List.mem_map.mp h
  exact isTemporary_temporary i

/-- The actions bind the temporaries that come next in order, and no other reserved name, and read
each of them once after it is bound. -/
structure Serial (k n : Nat) (as : List Action) : Prop where
  bound : (as.flatMap Action.binds).filter Reserved = temporariesAfter k n
  read : (as.flatMap Action.reads).filter IsTemporary = temporariesAfter k n
  order : ∀ scope, implicitTerminal ∈ scope → ReadsBound scope as

theorem Serial.append {k n n' : Nat} {as bs : List Action}
    (h : Serial k n as) (h' : Serial (k + n) n' bs) : Serial k (n + n') (as ++ bs) where
  bound := by
    rw [List.flatMap_append, List.filter_append, h.bound, h'.bound, temporariesAfter_append]
  read := by
    rw [List.flatMap_append, List.filter_append, h.read, h'.read, temporariesAfter_append]
  order scope hscope :=
    readsBound_append.mpr ⟨h.order scope hscope, h'.order _ (List.mem_append_left _ hscope)⟩

theorem serial_of_modest {k : Nat} {as : List Action}
    (hbinds : ∀ name ∈ as.flatMap Action.binds, ¬ Reserved name)
    (hreads : Modest (as.flatMap Action.reads)) : Serial k 0 as where
  bound := List.filter_eq_nil_iff.mpr fun name hname => by simpa using hbinds name hname
  read := hreads.filter_isTemporary
  order _ hscope := readsBound_of_modest hreads hscope

theorem binds_evaluation (e : Expr) (name : String) (value : Operand) :
    (preparation e ++ [Action.bind name value]).flatMap Action.binds = [name] := by
  rw [List.flatMap_append, binds_preparation]
  rfl

theorem Denotes.modest_evaluation {e : Expr} {value : Operand} (h : Denotes e value)
    (name : String) :
    Modest ((preparation e ++ [Action.bind name value]).flatMap Action.reads) := by
  rw [List.flatMap_append, modest_append]
  exact ⟨h.modest.1, by simpa [Action.reads] using h.modest.2⟩

theorem Planned.serial {k : Nat} {s : Statement} {as : List Action} (h : Planned k s as) :
    Serial k s.exprs.length as := by
  cases h with
  | request addressable =>
      refine serial_of_modest ?_ (modest_sending addressable)
      simp [binds_sending]
  | declare free =>
      have hbinds (names : List String) :
          (names.map Action.start).flatMap Action.binds = names := by
        simp [List.flatMap_map, Action.binds]
      have hreads (names : List String) :
          (names.map Action.start).flatMap Action.reads = [] := by
        simp [List.flatMap_map, Action.reads]
      refine serial_of_modest ?_ ?_
      · intro name hname
        rw [hbinds] at hname
        exact not_reserved_iff.mpr (free name hname)
      · rw [hreads]
        simp [Modest]
  | @assign target e value denotes free =>
      have hmodest := denotes.modest_evaluation (temporary (k + 1))
      have hfree := not_reserved_iff.mpr free
      constructor
      · rw [List.flatMap_append, binds_evaluation]
        simp [Action.binds, hfree, temporariesAfter, Statement.exprs]
      · rw [List.flatMap_append, List.filter_append, hmodest.filter_isTemporary]
        simp [Action.reads, Operand.reads, temporariesAfter, Statement.exprs]
      · intro scope hscope
        refine readsBound_append.mpr ⟨readsBound_of_modest hmodest hscope, ?_⟩
        rw [binds_evaluation, readsBound_singleton]
        simp [Action.reads, Operand.reads]
  | @check relation left right l r first second =>
      have hmodest : Modest ((preparation left ++ [Action.bind (temporary (k + 1)) l] ++
          (preparation right ++ [Action.bind (temporary (k + 2)) r])).flatMap Action.reads) := by
        rw [List.flatMap_append, modest_append]
        exact ⟨first.modest_evaluation _, second.modest_evaluation _⟩
      have hbinds : (preparation left ++ [Action.bind (temporary (k + 1)) l] ++
          (preparation right ++ [Action.bind (temporary (k + 2)) r])).flatMap Action.binds =
            [temporary (k + 1), temporary (k + 2)] := by
        rw [List.flatMap_append, binds_evaluation, binds_evaluation]
        rfl
      constructor
      · rw [List.flatMap_append, hbinds]
        simp [Action.binds, temporariesAfter, Statement.exprs, List.range'_succ]
      · rw [List.flatMap_append, List.filter_append, hmodest.filter_isTemporary]
        simp [Action.reads, temporariesAfter, Statement.exprs, List.range'_succ]
      · intro scope hscope
        refine readsBound_append.mpr ⟨readsBound_of_modest hmodest hscope, ?_⟩
        rw [hbinds, readsBound_singleton]
        simp [Action.reads]

/-! ## Counting -/

/-- A statement takes one temporary for each of its expressions. -/
theorem temporaries_of_statement {s : Statement} {actions : List Action} {n n' : Numbering}
    (h : (statement s).runFrom n = (.ok actions, n')) :
    n'.temporaries = n.temporaries + s.exprs.length := by
  cases s with
  | request r =>
      obtain ⟨⟨actions', sent⟩, n₁, hrequest, hrest⟩ := runFrom_bind_ok h
      obtain ⟨-, -, -, rfl⟩ := request_ok hrequest
      cases hrest
      rfl
  | declare names =>
      obtain ⟨-, -, rfl⟩ := declaration_ok h
      rfl
  | assign target value =>
      obtain ⟨⟨evaluation, name⟩, n₁, hexpression, hrest⟩ := runFrom_bind_ok h
      obtain ⟨target', n₂, huser, hrest₂⟩ := runFrom_bind_ok hrest
      obtain ⟨-, -, -, -, hcount⟩ := expression_ok hexpression
      obtain ⟨-, -, rfl⟩ := userName_ok huser
      cases hrest₂
      exact hcount
  | check relation left right =>
      obtain ⟨⟨first, leftName⟩, n₁, hleft, hrest⟩ := runFrom_bind_ok h
      obtain ⟨⟨second, rightName⟩, n₂, hright, hrest₂⟩ := runFrom_bind_ok hrest
      obtain ⟨-, -, -, -, hfirst⟩ := expression_ok hleft
      obtain ⟨-, -, -, -, hsecond⟩ := expression_ok hright
      cases hrest₂
      rw [hsecond, hfirst]
      rfl

theorem serial_of_statements {ss : List Statement} {actions : List Action} {n n' : Numbering}
    (h : (statements ss).runFrom n = (.ok actions, n')) :
    Serial n.temporaries (ss.flatMap Statement.exprs).length actions := by
  induction ss generalizing actions n n' with
  | nil =>
      cases h
      exact serial_of_modest (by simp) (by simp [Modest])
  | cons s ss ih =>
      obtain ⟨first, n₁, hfirst, hrest⟩ := runFrom_bind_ok h
      obtain ⟨more, n₂, hmore, hrest₂⟩ := runFrom_bind_ok hrest
      cases hrest₂
      have hlater := ih hmore
      rw [temporaries_of_statement hfirst] at hlater
      rw [List.flatMap_cons, List.length_append]
      exact (statement_ok hfirst).serial.append hlater

/-- A plan of a case with its temporaries in order. -/
def SerialPlan (c : TestCase) (p : Plan) : Prop :=
  ∃ body, PlannedAll c.statements body ∧ Serial 0 c.exprs.length body ∧
    p.actions = .start implicitTerminal :: body

theorem serialPlans_of_testCases {cs : List TestCase} {plans : List Plan} {n n' : Numbering}
    (h : (testCases cs).runFrom n = (.ok plans, n')) : List.Forall₂ SerialPlan cs plans := by
  induction cs generalizing plans n n' with
  | nil =>
      cases h
      exact List.Forall₂.nil
  | cons c cs ih =>
      obtain ⟨p, n₁, hp, hrest⟩ := runFrom_bind_ok h
      obtain ⟨more, n₂, hmore, hrest₂⟩ := runFrom_bind_ok hrest
      cases hrest₂
      obtain ⟨function, n₃, hbegin, hrest₃⟩ := runFrom_bind_ok hp
      obtain ⟨body, n₄, hbody, hrest₄⟩ := runFrom_bind_ok hrest₃
      cases hbegin
      cases hrest₄
      exact List.Forall₂.cons ⟨body, statements_ok hbody, serial_of_statements hbody, rfl⟩
        (ih hmore)

theorem serialPlans_of_suite {file : CaseFile} {suite : Suite} (h : file.suite = .ok suite) :
    List.Forall₂ SerialPlan file.cases suite.plans := by
  rcases hrun : (Plan.suite file).runFrom {} with ⟨result, n⟩
  rw [CaseFile.suite, hrun] at h
  obtain rfl : result = .ok suite := h
  obtain ⟨plans, n₁, hplans, hrest⟩ := runFrom_bind_ok hrun
  cases hrest
  exact serialPlans_of_testCases hplans

end Plan
end CaseSuite
