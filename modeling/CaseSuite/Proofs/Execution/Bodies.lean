import CaseSuite.Proofs.Execution.Planning
import CaseSuite.Proofs.Execution.Turns

/-!
# Bodies of cases

What a runtime makes of the next action of a body, in the cases that a turn tells apart.  In the
body of a synchronous case each query is waited for before anything else happens, and only what it
needs is asked of its terminal in between: such a body is tidy.
-/

namespace CaseSuite
namespace Case

open Terminal (Answer Call)

variable {σ : Type}

namespace Run

/-! ## The next action -/

/-- Bind a name if there is one. -/
def bound (target : Option String) (b : Binding) (names : Bindings) : Bindings :=
  match target with
  | some name => (name, b) :: names
  | none => names

/-- Go on with a body after a call. -/
def proceed (rt : Runtime σ) (target : Option String) (rest : List Action) (names : Bindings)
    (operations : List Operation) : Answer × σ → Except Halt Unit × Record σ
  | (.nothing, state) => (actions rt rest).runFrom { state, names, operations }
  | (.value v, state) =>
      (actions rt rest).runFrom { state, names := bound target (.value v) names, operations }
  | (.error e, state) => (.error (.failed (.run e)), { state, names, operations })

variable {rt : Runtime σ} {s : σ} {names : Bindings} {ops : List Operation} {rest : List Action}

theorem runFrom_start_ok
    {name : String} {i : Nat} {s' : σ} (h : rt.start s name = (.ok i, s')) :
    (actions rt (.start name :: rest)).runFrom ⟨s, names, ops⟩ =
      (actions rt rest).runFrom ⟨s', (name, .terminal i) :: names, ops ++ [.start name]⟩ := by
  simp [actions, action, h, Except.mapError]

theorem runFrom_start_error
    {name : String} {e : Failure} {s' : σ} (h : rt.start s name = (.error e, s')) :
    (actions rt (.start name :: rest)).runFrom ⟨s, names, ops⟩ =
      (.error (.failed e), ⟨s', names, ops ++ [.start name]⟩) := by
  simp [actions, action, h, Except.mapError]

theorem runFrom_operand_of_binding
    (rt : Runtime σ) {value : Operand} {b : Binding} {r : Record σ}
    (h : binding? r.names value = some b) :
    (operand rt value).runFrom r = (.ok (some b), r) := by
  cases value with
  | «variable» name =>
      rw [operand, runFrom_bind, runFrom_binding_of_some h]
      rfl
  | call name method argument => cases h
  | _ =>
      cases h
      rfl

theorem runFrom_value
    {a : Action} {target : Option String} {value : Operand} {b : Binding}
    (ha : a.operand? = some (target, value)) (hb : binding? names value = some b) :
    (actions rt (a :: rest)).runFrom ⟨s, names, ops⟩ =
      (actions rt rest).runFrom ⟨s, bound target b names, ops⟩ := by
  have hoperand := runFrom_operand_of_binding rt (r := ⟨s, names, ops⟩) hb
  cases a with
  | bind name value =>
      cases ha
      simp [actions, action, hoperand, bound]
  | run value =>
      cases ha
      simp [actions, action, hoperand, bound]
  | start name => cases ha
  | check relation left right => cases ha

theorem runFrom_begin
    {a : Action} {target : Option String} {name : String} {method : Method}
    {argument : Option String} {i : Nat} {c : Call}
    (ha : a.operand? = some (target, .call name method argument))
    (hi : terminalOf? names name = some i) (hcall : callOf? method argument = some c) :
    (actions rt (a :: rest)).runFrom ⟨s, names, ops⟩ =
      proceed rt target rest names (ops ++ [.call i c]) (rt.perform s i c) := by
  have hterminal := runFrom_terminal_of_some (r := (⟨s, names, ops⟩ : Record σ)) hi
  rcases hanswer : rt.perform s i c with ⟨answer, s'⟩
  cases a with
  | bind name value =>
      cases ha
      cases answer <;>
        simp [actions, action, operand, hterminal, hcall, hanswer, ofAnswer, proceed, bound]
  | run value =>
      cases ha
      cases answer <;>
        simp [actions, action, operand, hterminal, hcall, hanswer, ofAnswer, proceed, bound]
  | start name => cases ha
  | check relation left right => cases ha

theorem lookup_of_valueOf?
    {name : String} {v : Value} (h : valueOf? names name = some v) :
    names.lookup name = some (.value v) := by
  unfold valueOf? at h
  split at h
  · rename_i hlookup
    cases h
    exact hlookup
  · cases h

theorem runFrom_check
    {relation : Relation} {left right : String} {l r : Value}
    (hl : valueOf? names left = some l) (hr : valueOf? names right = some r) :
    (actions rt (.check relation left right :: rest)).runFrom ⟨s, names, ops⟩ =
      match relation.check l r with
      | .ok () => (actions rt rest).runFrom ⟨s, names, ops⟩
      | .error e => (.error (.failed e), ⟨s, names, ops⟩) := by
  have hleft := runFrom_binding_of_some (r := (⟨s, names, ops⟩ : Record σ))
    (lookup_of_valueOf? hl)
  have hright := runFrom_binding_of_some (r := (⟨s, names, ops⟩ : Record σ))
    (lookup_of_valueOf? hr)
  rcases hcheck : relation.check l r with e | _
  · simp [actions, action, hleft, hright, check, hcheck]
  · simp [actions, action, hleft, hright, check, hcheck]

/-! ### Names that stand for nothing fitting -/

variable {τ : Type} {db : Database τ} {env : Environment} {m : Running τ}

theorem runFrom_operand_of_evaluate_none
    {value : Operand} {target : Option String} (h : m.evaluate value target rest = none) :
    (operand rt value).runFrom ⟨s, m.names, ops⟩ = (.error .stuck, ⟨s, m.names, ops⟩) := by
  cases value with
  | «variable» name =>
      have hnone : m.names.lookup name = none := Option.map_eq_none_iff.mp h
      rw [operand, runFrom_bind, runFrom_binding_of_none hnone]
  | call name method argument =>
      rw [operand, runFrom_bind]
      rcases hi : terminalOf? m.names name with _ | i
      · rw [runFrom_terminal_of_none hi]
      · rw [runFrom_terminal_of_some hi]
        rcases hcall : callOf? method argument with _ | c
        · rfl
        · simp [Running.evaluate, hi, hcall] at h
  | _ => cases h

theorem runFrom_check_of_act_none
    {relation : Relation} {left right : String}
    (h : m.act db env (.check relation left right) rest = none) :
    (action rt (.check relation left right)).runFrom ⟨s, m.names, ops⟩ =
      (.error .stuck, ⟨s, m.names, ops⟩) := by
  rw [action, runFrom_bind]
  rcases hl : m.names.lookup left with _ | l
  · rw [runFrom_binding_of_none hl]
  · rw [runFrom_binding_of_some hl]
    simp only [runFrom_bind]
    rcases hr : m.names.lookup right with _ | r
    · rw [runFrom_binding_of_none hr]
    · rw [runFrom_binding_of_some hr]
      simp only
      cases l with
      | terminal i => rfl
      | value l =>
          cases r with
          | terminal j => rfl
          | value r =>
              simp only [Running.act, valueOf?, hl, hr] at h
              split at h
              · cases h
              · cases h

/-- Where a body has no step, every runtime is stuck. -/
theorem runFrom_of_act_none
    {a : Action} (h : m.act db env a rest = none) :
    (actions rt (a :: rest)).runFrom ⟨s, m.names, ops⟩ =
      (.error .stuck, ⟨s, m.names, ops⟩) := by
  have haction : (action rt a).runFrom ⟨s, m.names, ops⟩ =
      (.error .stuck, ⟨s, m.names, ops⟩) := by
    cases a with
    | start name =>
        simp only [Running.act] at h
        split at h <;> cases h
    | bind target value =>
        rw [action, runFrom_bind, runFrom_operand_of_evaluate_none h]
    | run value =>
        rw [action, runFrom_bind, runFrom_operand_of_evaluate_none h]
    | check relation left right => exact runFrom_check_of_act_none h
  rw [actions, runFrom_bind, haction]

end Run

end Case

/-! ## Synchronous cases -/

def Expr.requests : Expr → List Request
  | .request r => [r]
  | .text _ | .number _ | .variable _ => []

def Statement.requests : Statement → List Request
  | .request r => [r]
  | .declare _ => []
  | .assign _ value => value.requests
  | .check _ left right => left.requests ++ right.requests

/-- Every request of the case is waited for. -/
def TestCase.Synchronous (c : TestCase) : Prop :=
  ∀ s ∈ c.statements, ∀ r ∈ s.requests, r.timing = .sync

instance (c : TestCase) : Decidable c.Synchronous :=
  inferInstanceAs (Decidable (∀ s ∈ c.statements, ∀ r ∈ s.requests, r.timing = .sync))

namespace Plan

/-! ## Tidy bodies -/

/-- Where a body stands with its last query. -/
inductive Pace where
  /-- Nothing is under way. -/
  | free
  /-- A query was sent to the terminal with this name. -/
  | executed (terminal : String)
  /-- Its rows were asked for as well. -/
  | stored (terminal : String)

/-- The operand sends nothing. -/
def isReading : Operand → Bool
  | .call _ .rows _ | .call _ .code _ => true
  | .call _ _ _ => false
  | _ => true

/-- Actions that wait for each query before they do anything else. -/
inductive Tidy : Pace → List Action → Prop
  | nil : Tidy .free []
  | start {name : String} {rest : List Action} (h : Tidy .free rest) :
      Tidy .free (.start name :: rest)
  | bind {target : String} {value : Operand} {rest : List Action}
      (reading : isReading value = true) (h : Tidy .free rest) :
      Tidy .free (.bind target value :: rest)
  | check {relation : Relation} {left right : String} {rest : List Action}
      (h : Tidy .free rest) : Tidy .free (.check relation left right :: rest)
  | execute {terminal query : String} {rest : List Action} (h : Tidy (.executed terminal) rest) :
      Tidy .free (.run (.call terminal .execute (some query)) :: rest)
  | store {terminal name : String} {rest : List Action} (h : Tidy (.stored terminal) rest) :
      Tidy (.executed terminal) (.run (.call terminal .store (some name)) :: rest)
  | wait {pace : Pace} {terminal : String} {rest : List Action}
      (under : pace = .executed terminal ∨ pace = .stored terminal) (h : Tidy .free rest) :
      Tidy pace (.run (.call terminal .wait none) :: rest)

theorem tidy_sending
    {r : Request} {rest : List Action} (hsync : r.timing = .sync) (h : Tidy .free rest) :
    Tidy .free (sending r ++ rest) := by
  by_cases hfetch : r.fetch = true
  · simp only [sending, if_pos hsync, if_pos hfetch]
    exact Tidy.execute (Tidy.store (Tidy.wait (Or.inr rfl) h))
  · simp only [sending, if_pos hsync, if_neg hfetch]
    exact Tidy.execute (Tidy.wait (Or.inl rfl) h)

theorem tidy_preparation
    {e : Expr} {rest : List Action} (hsync : ∀ r ∈ e.requests, r.timing = .sync)
    (h : Tidy .free rest) : Tidy .free (preparation e ++ rest) := by
  cases e with
  | request r => exact tidy_sending (hsync r List.mem_cons_self) h
  | _ => exact h

theorem Denotes.isReading
    {e : Expr} {value : Operand} (h : Denotes e value) : isReading value = true := by
  cases h with
  | text => rfl
  | «variable» => rfl
  | number hnumber =>
      unfold number? at hnumber
      split at hnumber
      · split at hnumber
        · split at hnumber
          · cases hnumber
            rfl
          · cases hnumber
        · cases hnumber
      · obtain ⟨n, -, rfl⟩ := Option.map_eq_some_iff.mp hnumber
        rfl
  | request =>
      unfold answer
      split <;> rfl

theorem tidy_starts
    (names : List String) {rest : List Action} (h : Tidy .free rest) :
    Tidy .free (names.map .start ++ rest) := by
  induction names with
  | nil => exact h
  | cons name names ih => exact Tidy.start ih

theorem Planned.tidy
    {k : Nat} {s : Statement} {as rest : List Action} (hplanned : Planned k s as)
    (hsync : ∀ r ∈ s.requests, r.timing = .sync) (h : Tidy .free rest) :
    Tidy .free (as ++ rest) := by
  cases hplanned with
  | request => exact tidy_sending (hsync _ List.mem_cons_self) h
  | declare => exact tidy_starts _ h
  | assign denotes =>
      rw [List.append_assoc, List.append_assoc]
      refine tidy_preparation hsync ?_
      exact Tidy.bind denotes.isReading (Tidy.bind rfl h)
  | check first second =>
      rw [List.append_assoc, List.append_assoc, List.append_assoc, List.append_assoc]
      refine tidy_preparation (fun r hr => hsync r (List.mem_append_left _ hr)) ?_
      refine Tidy.bind first.isReading ?_
      refine tidy_preparation (fun r hr => hsync r (List.mem_append_right _ hr)) ?_
      exact Tidy.bind second.isReading (Tidy.check h)

/-- The actions of synchronous statements are tidy. -/
theorem PlannedAll.tidy
    {ss : List Statement} {as : List Action} (hplanned : PlannedAll ss as)
    (hsync : ∀ s ∈ ss, ∀ r ∈ s.requests, r.timing = .sync) : Tidy .free as := by
  induction hplanned with
  | nil => exact Tidy.nil
  | cons first rest ih =>
      refine first.tidy (hsync _ List.mem_cons_self) (ih ?_)
      exact fun s hs => hsync s (List.mem_cons_of_mem _ hs)

end Plan
end CaseSuite
