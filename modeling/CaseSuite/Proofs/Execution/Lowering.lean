import CaseSuite.Proofs.Execution.Planning
import Mathlib

/-!
# Plans mean what their cases say

The planner flattens a case into actions.  Over every sequential runtime the actions ask for the
same operations as the statements of the case, bind the same names to the same things and end the
same way.  The names of a plan hold more than those of its case: the implicit terminal and one
temporary for every operand.  All of these are reserved, so hiding the reserved names of the plan
gives the names of the case.
-/

namespace CaseSuite
namespace Case

open Terminal (Call)
open Plan (Addressable Denotes Planned PlannedAll PlanOf answer implicitTerminal isReserved
  preparation sending temporary terminalName)

variable {σ : Type}

/-- The bindings of names that a case file may use. -/
def userNames (names : Bindings) : Bindings :=
  names.filter fun b => !isReserved b.1

theorem userNames_cons_of_reserved
    {name : String} (h : isReserved name = true) (b : Binding) (names : Bindings) :
    userNames ((name, b) :: names) = userNames names := by
  simp [userNames, h]

theorem userNames_cons_of_free
    {name : String} (h : isReserved name = false) (b : Binding) (names : Bindings) :
    userNames ((name, b) :: names) = (name, b) :: userNames names := by
  simp [userNames, h]

theorem lookup_userNames
    {name : String} (h : isReserved name = false) (names : Bindings) :
    (userNames names).lookup name = names.lookup name := by
  induction names with
  | nil => rfl
  | cons entry names ih =>
      obtain ⟨other, b⟩ := entry
      by_cases heq : name = other
      · subst heq
        rw [userNames_cons_of_free h, List.lookup_cons_self, List.lookup_cons_self]
      · have hne : (name == other) = false := by simpa using heq
        rcases hother : isReserved other with _ | _
        · rw [userNames_cons_of_free hother, List.lookup_cons, List.lookup_cons, hne]
          exact ih
        · rw [userNames_cons_of_reserved hother, List.lookup_cons, hne]
          exact ih

namespace Run

/-- The record after a call. -/
def called (rt : Runtime σ) (i : Nat) (r : Record σ) (c : Call) : Record σ :=
  { r with
    state := (rt.perform r.state i c).2
    operations := r.operations ++ [.call i c] }

/-- The record after a request has been dispatched. -/
def dispatched (rt : Runtime σ) (i : Nat) (q : Request) (r : Record σ) : Record σ :=
  let executed := called rt i r (.execute q.query)
  let stored := if q.fetch then called rt i executed (.store (resultName q.target)) else executed
  if q.timing = .sync then called rt i stored .wait else stored

end Run

/-- The record of a plan beside the record of its case. -/
structure Related (implicit : Nat) (planned written : Record σ) : Prop where
  state : planned.state = written.state
  operations : planned.operations = written.operations
  names : userNames planned.names = written.names
  terminal : terminalOf? planned.names implicitTerminal = some implicit

namespace Related

variable {implicit : Nat} {planned written : Record σ}

theorem lookup_eq
    (h : Related implicit planned written) {name : String} (free : isReserved name = false) :
    written.names.lookup name = planned.names.lookup name := by
  rw [← h.names, lookup_userNames free]

theorem terminalOf?_eq
    (h : Related implicit planned written) {name : String} (free : isReserved name = false) :
    terminalOf? written.names name = terminalOf? planned.names name := by
  rw [terminalOf?, terminalOf?, h.lookup_eq free]

/-- A binding of another name leaves the implicit terminal where it was. -/
theorem terminal_cons
    (h : Related implicit planned written) {name : String} (hne : name ≠ implicitTerminal)
    (b : Binding) :
    terminalOf? ((name, b) :: planned.names) implicitTerminal = some implicit := by
  have hname : (implicitTerminal == name) = false := by simpa using fun heq => hne heq.symm
  have hterminal := h.terminal
  rw [terminalOf?] at hterminal ⊢
  rw [List.lookup_cons, hname]
  exact hterminal

/-- The plan alone binds a temporary. -/
theorem bindTemporary
    (h : Related implicit planned written) (n : Nat) (b : Binding) :
    Related implicit { planned with names := (temporary n, b) :: planned.names } written where
  state := h.state
  operations := h.operations
  names := by rw [userNames_cons_of_reserved (Plan.isReserved_temporary n), h.names]
  terminal := h.terminal_cons (Plan.temporary_ne_implicitTerminal n) b

/-- Both bind a name of the case. -/
theorem bindUser
    (h : Related implicit planned written) {name : String} (free : isReserved name = false)
    (b : Binding) :
    Related implicit { planned with names := (name, b) :: planned.names }
      { written with names := (name, b) :: written.names } where
  state := h.state
  operations := h.operations
  names := by rw [userNames_cons_of_free free, h.names]
  terminal := by
    refine h.terminal_cons ?_ b
    rintro rfl
    rw [Plan.isReserved_implicitTerminal] at free
    cases free

/-- Both ask for the same operation. -/
theorem operate
    (h : Related implicit planned written) (w : σ) (o : Operation) :
    Related implicit { planned with state := w, operations := planned.operations ++ [o] }
      { written with state := w, operations := written.operations ++ [o] } where
  state := rfl
  operations := by rw [h.operations]
  names := h.names
  terminal := h.terminal

theorem called
    (h : Related implicit planned written) (rt : Runtime σ) (i : Nat) (c : Call) :
    Related implicit (Run.called rt i planned c) (Run.called rt i written c) := by
  unfold Run.called
  rw [h.state]
  exact h.operate _ _

theorem dispatched
    (h : Related implicit planned written) (rt : Runtime σ) (i : Nat) (q : Request) :
    Related implicit (Run.dispatched rt i q planned) (Run.dispatched rt i q written) := by
  have hexecuted := h.called rt i (.execute q.query)
  have hstored := hexecuted.called rt i (.store (Run.resultName q.target))
  unfold Run.dispatched
  by_cases hfetch : q.fetch = true
  · simp only [if_pos hfetch]
    split
    · exact hstored.called rt i .wait
    · exact hstored
  · simp only [if_neg hfetch]
    split
    · exact hexecuted.called rt i .wait
    · exact hexecuted

end Related

namespace Run

variable {rt : Runtime σ} {implicit : Nat}

/-! ## Requests -/

/-- The terminal that a request of a case goes to. -/
def addressee? (implicit : Nat) (names : Bindings) : Target → Option Nat
  | .implicit => some implicit
  | .named name => terminalOf? names name

theorem terminalOf?_terminalName
    {target : Target} (addressable : Addressable target) {planned written : Record σ}
    (h : Related implicit planned written) :
    terminalOf? planned.names (terminalName target) = addressee? implicit written.names target := by
  cases target with
  | implicit => exact h.terminal
  | named name => exact (h.terminalOf?_eq (addressable name rfl)).symm

theorem runFrom_operand_call
    {r : Record σ} {name : String} {i : Nat} (hname : terminalOf? r.names name = some i)
    {method : Method} {argument : Option String} {c : Call}
    (hcall : callOf? method argument = some c) :
    (operand rt (.call name method argument)).runFrom r =
      ((ofAnswer (rt.perform r.state i c).1).map (·.map .value), called rt i r c) := by
  simp only [operand, runFrom_bind, runFrom_terminal_of_some hname, hcall, runFrom_call]
  cases ofAnswer (rt.perform r.state i c).1 with
  | ok v => rfl
  | error e => rfl

theorem runFrom_operand_call_of_none
    {r : Record σ} {name : String} (hname : terminalOf? r.names name = none)
    (method : Method) (argument : Option String) :
    (operand rt (.call name method argument)).runFrom r = (.error .stuck, r) := by
  simp [operand, runFrom_terminal_of_none hname]

/-- A call that answers nothing goes through. -/
theorem runFrom_run_call
    {r : Record σ} {name : String} {i : Nat} (hname : terminalOf? r.names name = some i)
    {method : Method} {argument : Option String} {c : Call}
    (hcall : callOf? method argument = some c) (hanswer : (rt.perform r.state i c).1 = .nothing) :
    (action rt (.run (.call name method argument))).runFrom r = (.ok (), called rt i r c) := by
  simp only [action, runFrom_bind, runFrom_operand_call hname hcall, hanswer]
  rfl

/-- A call that is made on a condition and answers nothing goes through. -/
theorem runFrom_optional_call
    (p : Prop) [Decidable p] {r : Record σ} {name : String} {i : Nat}
    (hname : terminalOf? r.names name = some i)
    {method : Method} {argument : Option String} {c : Call}
    (hcall : callOf? method argument = some c) (hanswer : (rt.perform r.state i c).1 = .nothing) :
    (actions rt (if p then [.run (.call name method argument)] else [])).runFrom r =
      (.ok (), if p then called rt i r c else r) := by
  by_cases h : p
  · simp only [if_pos h, actions, runFrom_bind, runFrom_run_call hname hcall hanswer, runFrom_pure]
  · simp only [if_neg h, actions, runFrom_pure]

/-- The actions of a request dispatch it. -/
theorem runFrom_actions_sending
    {q : Request} {r : Record σ} {i : Nat}
    (hname : terminalOf? r.names (terminalName q.target) = some i) :
    (actions rt (sending q)).runFrom r = (.ok (), dispatched rt i q r) := by
  let executed := called rt i r (.execute q.query)
  let stored := if q.fetch then called rt i executed (.store (resultName q.target)) else executed
  have hstored : terminalOf? stored.names (terminalName q.target) = some i := by
    simp only [stored]
    split <;> exact hname
  have hexecute :
      (actions rt [.run (.call (terminalName q.target) .execute (some q.query))]).runFrom r =
        (.ok (), executed) := by
    simp only [actions, runFrom_bind, runFrom_pure]
    rw [runFrom_run_call hname rfl rfl]
  rw [sending, runFrom_actions_append, runFrom_actions_append, hexecute]
  simp only
  rw [runFrom_optional_call (q.fetch = true) (r := executed) hname rfl rfl]
  exact runFrom_optional_call (q.timing = .sync) hstored rfl rfl

theorem runFrom_actions_sending_of_none
    {q : Request} {r : Record σ} (hname : terminalOf? r.names (terminalName q.target) = none) :
    (actions rt (sending q)).runFrom r = (.error .stuck, r) := by
  rw [sending, List.append_assoc, List.singleton_append, actions]
  simp only [action, runFrom_bind, runFrom_operand_call_of_none hname]

/-- Sending a request dispatches it. -/
theorem runFrom_send
    {q : Request} {r : Record σ} {i : Nat}
    (htarget : addressee? implicit r.names q.target = some i) :
    (send rt implicit q).runFrom r = (.ok i, dispatched rt i q r) := by
  have haddressee : (addressee implicit q.target).runFrom r = (.ok i, r) := by
    rcases q with ⟨_ | name, timing, query, fetch⟩
    · cases htarget
      rfl
    · exact runFrom_terminal_of_some htarget
  simp only [send, runFrom_bind, haddressee, runFrom_call, dispatched]
  by_cases hfetch : q.fetch = true
  · by_cases hsync : q.timing = .sync
    · simp only [if_pos hfetch, if_pos hsync]
      rfl
    · simp only [if_pos hfetch, if_neg hsync]
      rfl
  · by_cases hsync : q.timing = .sync
    · simp only [if_neg hfetch, if_pos hsync]
      rfl
    · simp only [if_neg hfetch, if_neg hsync]
      rfl

theorem runFrom_send_of_none
    {q : Request} {r : Record σ} (htarget : addressee? implicit r.names q.target = none) :
    (send rt implicit q).runFrom r = (.error .stuck, r) := by
  have haddressee : (addressee implicit q.target).runFrom r = (.error .stuck, r) := by
    rcases q with ⟨_ | name, timing, query, fetch⟩
    · cases htarget
    · exact runFrom_terminal_of_none htarget
  simp only [send, runFrom_bind, haddressee]

/-! ## Expressions -/

/-- Reading an answer fails or gives a value. -/
theorem ofAnswer_answerCall
    (rt : Runtime σ) (q : Request) (w : σ) (i : Nat) :
    (∃ v, ofAnswer (rt.perform w i (answerCall q)).1 = .ok (some v)) ∨
      ∃ e, ofAnswer (rt.perform w i (answerCall q)).1 = .error e := by
  unfold answerCall
  by_cases hfetch : q.fetch = true
  · rw [if_pos hfetch]
    rcases hrows : (rt.rows w i (resultName q.target)).1 with e | v
    · refine Or.inr ⟨.failed (.run e), ?_⟩
      simp only [Runtime.perform, hrows]
      rfl
    · refine Or.inl ⟨v, ?_⟩
      simp only [Runtime.perform, hrows]
      rfl
  · rw [if_neg hfetch]
    exact Or.inl ⟨_, rfl⟩

theorem runFrom_operand_answer
    {q : Request} {r : Record σ} {i : Nat}
    (hname : terminalOf? r.names (terminalName q.target) = some i) :
    (operand rt (answer q)).runFrom r =
      ((ofAnswer (rt.perform r.state i (answerCall q)).1).map (·.map .value),
        called rt i r (answerCall q)) := by
  unfold answer answerCall
  by_cases hfetch : q.fetch = true
  · rw [if_pos hfetch, if_pos hfetch]
    exact runFrom_operand_call hname rfl
  · rw [if_neg hfetch, if_neg hfetch]
    exact runFrom_operand_call hname rfl

/-- What evaluating an operand into a name leaves behind, beside the expression it stands for. -/
inductive Evaluated (implicit : Nat) (name : String) (names : Bindings) :
    Except Halt Unit × Record σ → Except Halt Binding × Record σ → Prop
  | value {b : Binding} {planned written : Record σ}
      (bound : planned.names = (name, b) :: names) (related : Related implicit planned written) :
      Evaluated implicit name names (.ok (), planned) (.ok b, written)
  | halted {h : Halt} {planned written : Record σ}
      (related : Related implicit planned written) :
      Evaluated implicit name names (.error h, planned) (.error h, written)

/-- Binding a temporary to an operand that has a value at once. -/
theorem evaluated_of_operand
    {value : Operand} {b : Binding} {planned written : Record σ}
    (hoperand : (operand rt value).runFrom planned = (.ok (some b), planned))
    (h : Related implicit planned written) (n : Nat) :
    Evaluated implicit (temporary n) planned.names
      ((actions rt [.bind (temporary n) value]).runFrom planned) (.ok b, written) := by
  have hrun : (actions rt [.bind (temporary n) value]).runFrom planned =
      (.ok (), { planned with names := (temporary n, b) :: planned.names }) := by
    simp only [actions, action, runFrom_bind, hoperand, runFrom_bindName, runFrom_pure]
  rw [hrun]
  exact Evaluated.value rfl (h.bindTemporary n b)

/-- Binding a temporary to the answer of a request. -/
theorem evaluated_answer
    (rt : Runtime σ) {q : Request} {i : Nat} {planned written : Record σ}
    (hname : terminalOf? planned.names (terminalName q.target) = some i)
    (h : Related implicit planned written) (n : Nat) :
    Evaluated implicit (temporary n) planned.names
      ((actions rt [.bind (temporary n) (answer q)]).runFrom planned)
      ((readAnswer rt q i).runFrom written) := by
  have hcalled := h.called rt i (answerCall q)
  rcases ofAnswer_answerCall rt q planned.state i with ⟨v, hv⟩ | ⟨e, he⟩
  · have hbind : (actions rt [.bind (temporary n) (answer q)]).runFrom planned =
        (.ok (), { called rt i planned (answerCall q) with
          names := (temporary n, .value v) :: planned.names }) := by
      simp only [actions, action, runFrom_bind, runFrom_operand_answer hname, hv]
      rfl
    have hread : (readAnswer rt q i).runFrom written =
        (.ok (.value v), called rt i written (answerCall q)) := by
      rw [h.state] at hv
      simp only [readAnswer, runFrom_bind, runFrom_call, hv]
      rfl
    rw [hbind, hread]
    exact Evaluated.value rfl (hcalled.bindTemporary n (.value v))
  · have hbind : (actions rt [.bind (temporary n) (answer q)]).runFrom planned =
        (.error e, called rt i planned (answerCall q)) := by
      simp only [actions, action, runFrom_bind, runFrom_operand_answer hname, he]
      rfl
    have hread : (readAnswer rt q i).runFrom written =
        (.error e, called rt i written (answerCall q)) := by
      rw [h.state] at he
      simp only [readAnswer, runFrom_bind, runFrom_call, he]
      rfl
    rw [hbind, hread]
    exact Evaluated.halted hcalled

theorem names_dispatched
    (rt : Runtime σ) (i : Nat) (q : Request) (r : Record σ) :
    (dispatched rt i q r).names = r.names := by
  simp only [dispatched]
  split <;> split <;> rfl

/-- A number has the same value in a plan and in its case. -/
theorem literal?_of_number?
    {literal : String} {value : Operand} (h : Plan.number? literal = some value) :
    ∃ v, literal? literal = some v ∧
      ∀ r : Record σ, (operand rt value).runFrom r = (.ok (some (.value v)), r) := by
  unfold Plan.number? at h
  unfold literal?
  by_cases hpoint : literal.toList.contains '.' = true
  · rw [if_pos hpoint] at h ⊢
    rcases hread : Binary64.read? literal with _ | x
    · rw [hread] at h
      cases h
    · simp only [hread] at h ⊢
      by_cases hfinite : x.isFinite = true
      · rw [if_pos hfinite] at h ⊢
        cases h
        exact ⟨_, rfl, fun r => rfl⟩
      · rw [if_neg hfinite] at h
        cases h
  · rw [if_neg hpoint] at h ⊢
    obtain ⟨n, hn, rfl⟩ := Option.map_eq_some_iff.mp h
    rw [hn]
    exact ⟨_, rfl, fun r => rfl⟩

/-- The actions of an expression evaluate it into their temporary. -/
theorem evaluated_expression
    (rt : Runtime σ) {e : Expr} {value : Operand} (denotes : Denotes e value)
    {planned written : Record σ} (h : Related implicit planned written) (n : Nat) :
    Evaluated implicit (temporary n) planned.names
      ((actions rt (preparation e ++ [.bind (temporary n) value])).runFrom planned)
      ((expression rt implicit e).runFrom written) := by
  cases denotes with
  | text content => exact evaluated_of_operand rfl h n
  | number hvalue =>
      obtain ⟨v, hv, hoperand⟩ := literal?_of_number? hvalue
      simp only [expression, hv, runFrom_pure]
      exact evaluated_of_operand (hoperand planned) h n
  | @«variable» name free =>
      have hlookup := h.lookup_eq free
      rcases hb : planned.names.lookup name with _ | b
      · rw [hb] at hlookup
        have hplan :
            (actions rt (preparation (.variable name) ++
              [.bind (temporary n) (.variable name)])).runFrom planned =
                (.error .stuck, planned) := by
          simp only [preparation, List.nil_append, actions, action, operand, runFrom_bind,
            runFrom_binding_of_none hb]
        rw [expression, runFrom_binding_of_none hlookup, hplan]
        exact Evaluated.halted h
      · rw [hb] at hlookup
        rw [expression, runFrom_binding_of_some hlookup]
        refine evaluated_of_operand ?_ h n
        simp only [operand, runFrom_bind, runFrom_binding_of_some hb, runFrom_pure]
  | @request q addressable =>
      have hterminal := terminalOf?_terminalName addressable h
      rw [preparation, runFrom_actions_append]
      simp only [expression, runFrom_bind]
      rcases htarget : addressee? implicit written.names q.target with _ | i
      · rw [htarget] at hterminal
        rw [runFrom_actions_sending_of_none hterminal, runFrom_send_of_none htarget]
        exact Evaluated.halted h
      · rw [htarget] at hterminal
        rw [runFrom_actions_sending hterminal, runFrom_send htarget]
        rw [← names_dispatched rt i q planned] at hterminal ⊢
        exact evaluated_answer rt hterminal (h.dispatched rt i q) n

/-! ## Statements -/

/-- Two runs that ended the same way and left related records. -/
def Agreed (implicit : Nat) (planned written : Except Halt Unit × Record σ) : Prop :=
  planned.1 = written.1 ∧ Related implicit planned.2 written.2

theorem agreed_request
    {q : Request} (addressable : Addressable q.target) {planned written : Record σ}
    (h : Related implicit planned written) :
    Agreed implicit ((actions rt (sending q)).runFrom planned)
      ((statement rt implicit (.request q)).runFrom written) := by
  have hterminal := terminalOf?_terminalName addressable h
  simp only [statement, runFrom_bind]
  rcases htarget : addressee? implicit written.names q.target with _ | i
  · rw [htarget] at hterminal
    rw [runFrom_actions_sending_of_none hterminal, runFrom_send_of_none htarget]
    exact ⟨rfl, h⟩
  · rw [htarget] at hterminal
    rw [runFrom_actions_sending hterminal, runFrom_send htarget]
    exact ⟨rfl, h.dispatched rt i q⟩

theorem agreed_declare
    {names : List String} (free : ∀ name ∈ names, isReserved name = false)
    {planned written : Record σ} (h : Related implicit planned written) :
    Agreed implicit ((actions rt (names.map .start)).runFrom planned)
      ((declare rt names).runFrom written) := by
  induction names generalizing planned written with
  | nil => exact ⟨rfl, h⟩
  | cons name names ih =>
      have hname : isReserved name = false := free name List.mem_cons_self
      have hnames : ∀ other ∈ names, isReserved other = false :=
        fun other hother => free other (List.mem_cons_of_mem name hother)
      have hstarted := h.operate (rt.start written.state name).2 (.start name)
      simp only [List.map_cons, actions, action, declare, runFrom_bind, runFrom_start, h.state]
      rcases (rt.start written.state name).1 with e | i
      · exact ⟨rfl, hstarted⟩
      · exact ih hnames (hstarted.bindUser hname (.terminal i))

theorem agreed_assign
    {target : String} {e : Expr} {value : Operand} (denotes : Denotes e value)
    (free : isReserved target = false) {planned written : Record σ}
    (h : Related implicit planned written) (n : Nat) :
    Agreed implicit
      ((actions rt (preparation e ++ [Action.bind (temporary n) value] ++
        [Action.bind target (.variable (temporary n))])).runFrom planned)
      ((statement rt implicit (.assign target e)).runFrom written) := by
  have heval := evaluated_expression rt denotes h n
  rw [runFrom_actions_append]
  simp only [statement, runFrom_bind]
  generalize (actions rt (preparation e ++ [.bind (temporary n) value])).runFrom planned = x
    at heval ⊢
  generalize (expression rt implicit e).runFrom written = y at heval ⊢
  cases heval with
  | halted related => exact ⟨rfl, related⟩
  | @value b left right bound related =>
      have hlookup : left.names.lookup (temporary n) = some b := by
        rw [bound, List.lookup_cons_self]
      simp only [actions, action, operand, runFrom_bind, runFrom_binding_of_some hlookup,
        runFrom_pure, runFrom_bindName]
      exact ⟨rfl, related.bindUser free b⟩

/-- A check looks at nothing but its operands and leaves the record alone. -/
theorem exists_runFrom_check
    (relation : Relation) (a b : Binding) :
    ∃ result, ∀ r : Record σ, (check relation a b).runFrom r = (result, r) := by
  rcases a with i | v
  · exact ⟨_, fun r => rfl⟩
  · rcases b with j | w
    · exact ⟨_, fun r => rfl⟩
    · simp only [check]
      rcases relation.check v w with e | _
      · exact ⟨_, fun r => rfl⟩
      · exact ⟨_, fun r => rfl⟩

theorem agreed_check
    {relation : Relation} {left right : Expr} {l r : Operand} (first : Denotes left l)
    (second : Denotes right r) {planned written : Record σ}
    (h : Related implicit planned written) {m n : Nat} (hne : m ≠ n) :
    Agreed implicit
      ((actions rt (preparation left ++ [Action.bind (temporary m) l] ++
        (preparation right ++ [Action.bind (temporary n) r]) ++
        [Action.check relation (temporary m) (temporary n)])).runFrom planned)
      ((statement rt implicit (.check relation left right)).runFrom written) := by
  have hleft := evaluated_expression rt first h m
  rw [runFrom_actions_append, runFrom_actions_append]
  simp only [statement, runFrom_bind]
  generalize (actions rt (preparation left ++ [.bind (temporary m) l])).runFrom planned = x
    at hleft ⊢
  generalize (expression rt implicit left).runFrom written = y at hleft ⊢
  cases hleft with
  | halted related => exact ⟨rfl, related⟩
  | @value a planned' written' bound related =>
      have hright := evaluated_expression rt second related n
      simp only
      generalize (actions rt (preparation right ++ [.bind (temporary n) r])).runFrom planned' = x
        at hright ⊢
      generalize (expression rt implicit right).runFrom written' = y at hright ⊢
      cases hright with
      | halted related => exact ⟨rfl, related⟩
      | @value b planned'' written'' bound' related' =>
          have hfar : (temporary m == temporary n) = false := by
            simpa using fun heq => hne (Plan.temporary_injective heq)
          have hm : planned''.names.lookup (temporary m) = some a := by
            rw [bound', List.lookup_cons, hfar, bound]
            exact List.lookup_cons_self
          have hn : planned''.names.lookup (temporary n) = some b := by
            rw [bound', List.lookup_cons_self]
          simp only [actions, action, runFrom_bind, runFrom_binding_of_some hm,
            runFrom_binding_of_some hn]
          obtain ⟨result, hresult⟩ := exists_runFrom_check (σ := σ) relation a b
          rw [hresult, hresult]
          rcases result with e | _
          · exact ⟨rfl, related'⟩
          · exact ⟨rfl, related'⟩

theorem agreed_statement
    (rt : Runtime σ) {k : Nat} {s : Statement} {as : List Action} (hplanned : Planned k s as)
    {planned written : Record σ} (h : Related implicit planned written) :
    Agreed implicit ((actions rt as).runFrom planned)
      ((statement rt implicit s).runFrom written) := by
  cases hplanned with
  | request addressable => exact agreed_request addressable h
  | declare free => exact agreed_declare free h
  | assign denotes free => exact agreed_assign denotes free h (k + 1)
  | check first second => exact agreed_check first second h (by omega)

/-- Running the actions of statements agrees with running the statements. -/
theorem agreed_statements
    (rt : Runtime σ) {ss : List Statement} {as : List Action} (hplanned : PlannedAll ss as)
    {planned written : Record σ} (h : Related implicit planned written) :
    Agreed implicit ((actions rt as).runFrom planned)
      ((statements rt implicit ss).runFrom written) := by
  induction hplanned generalizing planned written with
  | nil => exact ⟨rfl, h⟩
  | @cons k s ss as bs first rest ih =>
      have hfirst := agreed_statement rt first h
      rw [runFrom_actions_append]
      simp only [statements, runFrom_bind]
      obtain ⟨houtcome, hrelated⟩ := hfirst
      rcases hx : (actions rt as).runFrom planned with ⟨result, left⟩
      rcases hy : (statement rt implicit s).runFrom written with ⟨result', right⟩
      rw [hx, hy] at houtcome hrelated
      obtain rfl : result = result' := houtcome
      rcases result with e | _
      · exact ⟨rfl, hrelated⟩
      · exact ih hrelated

end Run

/-- A plan beside the case that it was made for. -/
structure SameRun (rt : Runtime σ) (w : σ) (c : TestCase) (p : Plan) : Prop where
  outcome : (runPlan rt w p).1 = (runCase rt w c).1
  operations : (runPlan rt w p).2.operations = (runCase rt w c).2.operations
  state : (runPlan rt w p).2.state = (runCase rt w c).2.state
  names : userNames (runPlan rt w p).2.names = (runCase rt w c).2.names

theorem sameRun_of_planOf
    {c : TestCase} {p : Plan} (h : PlanOf c p) (rt : Runtime σ) (w : σ) : SameRun rt w c p := by
  obtain ⟨body, hbody, hactions⟩ := h
  rcases hstart : rt.start w "case_terminal" with ⟨e | implicit, w'⟩
  · have hplan : runPlan rt w p = (.error (.failed e),
        { state := w', operations := [.start "case_terminal"] }) := by
      simp [runPlan, hactions, Run.actions, Run.action, implicitTerminal, hstart, Except.mapError]
    have hcase : runCase rt w c = (.error (.failed e),
        { state := w', operations := [.start "case_terminal"] }) := by
      simp [runCase, hstart, Except.mapError]
    constructor
    all_goals rw [hplan, hcase]
    rfl
  · have hplan : runPlan rt w p = (Run.actions rt body).runFrom
        { state := w', names := [(implicitTerminal, .terminal implicit)],
          operations := [.start "case_terminal"] } := by
      simp [runPlan, hactions, Run.actions, Run.action, implicitTerminal, hstart, Except.mapError]
    have hcase : runCase rt w c = (Run.statements rt implicit c.statements).runFrom
        { state := w', operations := [.start "case_terminal"] } := by
      simp [runCase, hstart, Except.mapError]
    have hrelated : Related implicit
        { state := w', names := [(implicitTerminal, .terminal implicit)],
          operations := [.start "case_terminal"] }
        { state := w', operations := [.start "case_terminal"] } :=
      { state := rfl, operations := rfl, names := rfl, terminal := rfl }
    have hagreed := Run.agreed_statements rt hbody hrelated
    rw [← hplan, ← hcase] at hagreed
    exact ⟨hagreed.1, hagreed.2.operations, hagreed.2.state, hagreed.2.names⟩

/-- Planning keeps the meaning of a case: if a case file has plans, then each plan asks over every
runtime for the same operations as its case, leaves the same names bound to the same things and
ends the same way. -/
theorem sameRun_of_suite
    {file : CaseFile} {suite : Suite} (h : file.suite = .ok suite) :
    List.Forall₂ (fun c p => ∀ {σ : Type} (rt : Runtime σ) (w : σ), SameRun rt w c p)
      file.cases suite.plans :=
  (Plan.suite_ok h).imp fun _ _ hplan _ rt w => sameRun_of_planOf hplan rt w

/-- A case that hides its own names and reads an answer on each side of a check. -/
def rebinding : CaseFile :=
  ⟨"", [⟨"rebinding", 1,
    [.declare ["a", "a"],
      .assign "x" (.number "1"),
      .assign "x" (.request ⟨.named "a", .async, "q", true⟩),
      .check .equal (.request ⟨.implicit, .sync, "r", false⟩) (.variable "x")]⟩]⟩

/-- The plan of that case. -/
def rebindingPlan : Plan :=
  ⟨"test_1_rebinding",
    [.start "case_terminal", .start "a", .start "a",
      .bind "tmp_1" (.int 1), .bind "x" (.variable "tmp_1"),
      .run (.call "a" .execute (some "q")), .run (.call "a" .store (some "scope_term_result")),
      .bind "tmp_2" (.call "a" .rows (some "scope_term_result")), .bind "x" (.variable "tmp_2"),
      .run (.call "case_terminal" .execute (some "r")), .run (.call "case_terminal" .wait none),
      .bind "tmp_3" (.call "case_terminal" .code none), .bind "tmp_4" (.variable "x"),
      .check .equal "tmp_3" "tmp_4"]⟩

theorem sameRun_rebinding :
    rebinding.suite = .ok ⟨"", [rebindingPlan]⟩ ∧
      List.Forall₂ (fun c p => ∀ {σ : Type} (rt : Runtime σ) (w : σ), SameRun rt w c p)
        rebinding.cases [rebindingPlan] := by
  have h : rebinding.suite = .ok ⟨"", [rebindingPlan]⟩ := by cbv
  exact ⟨h, sameRun_of_suite h⟩

end Case
end CaseSuite
