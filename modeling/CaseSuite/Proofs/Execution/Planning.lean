import CaseSuite.Plan.Planner
import CaseSuite.Proofs.Execution.Runtime
import Mathlib.Data.List.Forall2

/-!
# What the planner emits

The planner either refuses a piece of a case or emits a definite list of actions for it.  This
module says which list, so that nothing about runs needs the planner's own definitions.  It also
collects what is known about names: temporaries are numbered apart from each other and lie among
the reserved names, which no accepted case uses.
-/

namespace CaseSuite
namespace Plan

/-! ## Reserved names -/

theorem temporary_injective
    {m n : Nat} (h : temporary m = temporary n) : m = n := by
  have hdigits : Nat.toDigits 10 m = Nat.toDigits 10 n := by
    have hlists : (temporary m).toList = (temporary n).toList := congrArg String.toList h
    simpa [temporary] using hlists
  rw [← Nat.ofDigitChars_ten_toDigits (n := m), hdigits, Nat.ofDigitChars_ten_toDigits]

theorem isDigit_of_mem_toDigits
    {n : Nat} {c : Char} (h : c ∈ Nat.toDigits 10 n) : Number.isDigit c = true := by
  have hdigit : c.isDigit = true := Nat.isDigit_of_mem_toDigits (by decide) (by decide) h
  simpa [Char.isDigit, Number.isDigit, Char.le_def] using hdigit

theorem isReserved_temporary (n : Nat) : isReserved (temporary n) = true := by
  have hlist : (temporary n).toList = temporaryStem.toList ++ Nat.toDigits 10 n := by
    simp [temporary]
  have hdrop : (temporary n).toList.drop temporaryStem.toList.length = Nat.toDigits 10 n := by
    rw [hlist, List.drop_left]
  have hall : (Nat.toDigits 10 n).all Number.isDigit = true :=
    List.all_eq_true.mpr fun c hc => isDigit_of_mem_toDigits hc
  have htemporary : isTemporary (temporary n) = true := by
    simp only [isTemporary, hdrop, hall]
    simp [hlist, Nat.toDigits_ne_nil]
  simp [isReserved, htemporary]

theorem isReserved_implicitTerminal : isReserved implicitTerminal = true := by
  decide

theorem temporary_ne_implicitTerminal (n : Nat) : temporary n ≠ implicitTerminal := by
  intro h
  have hlists : (temporary n).toList = implicitTerminal.toList := congrArg String.toList h
  simp [temporary, temporaryStem, implicitTerminal] at hlists

/-! ## Taking the planner apart -/

@[simp] theorem runFrom_bind
    {α β : Type} (x : Planner α) (f : α → Planner β) (n : Numbering) :
    (x >>= f).runFrom n =
      match x.runFrom n with
      | (.ok a, n) => (f a).runFrom n
      | (.error e, n) => (.error e, n) := by
  rw [Planner.runFrom, Planner.runFrom]
  change (match x.run.run n with | (a, s) => (ExceptT.bindCont f a).run s) = _
  rcases x.run.run n with ⟨_ | a, n'⟩
  · rfl
  · rfl

@[simp] theorem runFrom_pure
    {α : Type} (a : α) (n : Numbering) : (pure a : Planner α).runFrom n = (.ok a, n) :=
  rfl

/-- A sequence of two planners succeeds only if both do. -/
theorem runFrom_bind_ok
    {α β : Type} {x : Planner α} {f : α → Planner β} {n n' : Numbering} {b : β}
    (h : (x >>= f).runFrom n = (.ok b, n')) :
    ∃ a n₁, x.runFrom n = (.ok a, n₁) ∧ (f a).runFrom n₁ = (.ok b, n') := by
  rw [runFrom_bind] at h
  rcases hx : x.runFrom n with ⟨_ | a, n₁⟩
  · rw [hx] at h
    cases h
  · rw [hx] at h
    exact ⟨a, n₁, rfl, h⟩

theorem userName_ok
    {name name' : String} {n n' : Numbering}
    (h : (userName name).runFrom n = (.ok name', n')) :
    isReserved name = false ∧ name' = name ∧ n' = n := by
  unfold userName at h
  by_cases hreserved : isReserved name = true
  · rw [if_pos hreserved] at h
    cases h
  · rw [if_neg hreserved] at h
    cases h
    exact ⟨by simpa using hreserved, rfl, rfl⟩

/-! ## Requests and expressions -/

/-- The name of the terminal of a request. -/
def terminalName : Target → String
  | .implicit => implicitTerminal
  | .named name => name

/-- The actions that dispatch a request. -/
def sending (r : Request) : List Action :=
  let terminal := terminalName r.target
  [.run (.call terminal .execute (some r.query))] ++
    (if r.fetch then [.run (.call terminal .store (some (Case.Run.resultName r.target)))]
      else []) ++
    (if r.timing = .sync then [.run (.call terminal .wait none)] else [])

/-- The operand that reads the answer to a request. -/
def answer (r : Request) : Operand :=
  if r.fetch then .call (terminalName r.target) .rows (some (Case.Run.resultName r.target))
  else .call (terminalName r.target) .code none

/-- A request of an accepted case names its terminal freely or not at all. -/
def Addressable (target : Target) : Prop :=
  ∀ name, target = .named name → isReserved name = false

theorem destination_ok
    {target : Target} {terminal resultName : String} {n n' : Numbering}
    (h : (destination target).runFrom n = (.ok (terminal, resultName), n')) :
    Addressable target ∧ terminal = terminalName target ∧
      resultName = Case.Run.resultName target ∧ n' = n := by
  cases target with
  | implicit =>
      cases h
      refine ⟨?_, rfl, rfl, rfl⟩
      intro name hname
      cases hname
  | named name =>
      obtain ⟨name', n₁, huser, hrest⟩ := runFrom_bind_ok h
      obtain ⟨hfree, rfl, rfl⟩ := userName_ok huser
      cases hrest
      refine ⟨?_, rfl, rfl, rfl⟩
      rintro other ⟨⟩
      exact hfree

theorem request_ok
    {r : Request} {actions : List Action} {sent : Sent} {n n' : Numbering}
    (h : (request r).runFrom n = (.ok (actions, sent), n')) :
    Addressable r.target ∧ actions = sending r ∧ sent.answer = answer r ∧ n' = n := by
  obtain ⟨⟨terminal, resultName⟩, n₁, hdestination, hrest⟩ := runFrom_bind_ok h
  obtain ⟨haddressable, rfl, rfl, rfl⟩ := destination_ok hdestination
  cases hrest
  exact ⟨haddressable, rfl, rfl, rfl⟩

/-- What the planner emits for an expression before it binds the temporary. -/
def preparation : Expr → List Action
  | .request r => sending r
  | _ => []

/-- The operand that an expression comes down to. -/
inductive Denotes : Expr → Operand → Prop
  | text (content : String) : Denotes (.text content) (.text content)
  | number {literal : String} {value : Operand}
      (h : number? literal = some value) : Denotes (.number literal) value
  | «variable» {name : String}
      (free : isReserved name = false) : Denotes (.variable name) (.variable name)
  | request {r : Request}
      (addressable : Addressable r.target) : Denotes (.request r) (answer r)

/-- An accepted expression is prepared and then bound to the next temporary. -/
theorem expression_ok
    {e : Expr} {actions : List Action} {name : String} {n n' : Numbering}
    (h : (expression e).runFrom n = (.ok (actions, name), n')) :
    ∃ value, Denotes e value ∧ name = temporary (n.temporaries + 1) ∧
      actions = preparation e ++ [.bind name value] ∧
      n'.temporaries = n.temporaries + 1 := by
  cases e with
  | text content =>
      cases h
      exact ⟨_, Denotes.text content, rfl, rfl, rfl⟩
  | number literal =>
      simp only [expression] at h
      split at h
      · cases h
        exact ⟨_, Denotes.number ‹_›, rfl, rfl, rfl⟩
      · cases h
  | «variable» spelling =>
      obtain ⟨spelling', n₁, huser, hrest⟩ := runFrom_bind_ok h
      obtain ⟨hfree, rfl, rfl⟩ := userName_ok huser
      cases hrest
      exact ⟨_, Denotes.variable hfree, rfl, rfl, rfl⟩
  | request r =>
      obtain ⟨⟨sent, how⟩, n₁, hrequest, hrest⟩ := runFrom_bind_ok h
      obtain ⟨haddressable, rfl, hanswer, rfl⟩ := request_ok hrequest
      cases hrest
      refine ⟨_, Denotes.request haddressable, rfl, ?_, rfl⟩
      simp [preparation, hanswer]

/-! ## Statements and cases -/

theorem declaration_ok
    {names : List String} {actions : List Action} {n n' : Numbering}
    (h : (declaration names).runFrom n = (.ok actions, n')) :
    (∀ name ∈ names, isReserved name = false) ∧ actions = names.map .start ∧ n' = n := by
  induction names generalizing actions n n' with
  | nil =>
      cases h
      exact ⟨by simp, rfl, rfl⟩
  | cons name names ih =>
      obtain ⟨name', n₁, huser, hrest⟩ := runFrom_bind_ok h
      obtain ⟨more, n₂, hmore, hrest₂⟩ := runFrom_bind_ok hrest
      obtain ⟨hfree, rfl, rfl⟩ := userName_ok huser
      obtain ⟨hnames, rfl, rfl⟩ := ih hmore
      cases hrest₂
      refine ⟨?_, rfl, rfl⟩
      simpa using ⟨hfree, hnames⟩

/-- The actions that an accepted statement may turn into, after a number of temporaries. -/
inductive Planned : Nat → Statement → List Action → Prop
  | request {k : Nat} {r : Request}
      (addressable : Addressable r.target) : Planned k (.request r) (sending r)
  | declare {k : Nat} {names : List String}
      (free : ∀ name ∈ names, isReserved name = false) :
      Planned k (.declare names) (names.map .start)
  | assign {k : Nat} {target : String} {e : Expr} {value : Operand}
      (denotes : Denotes e value) (free : isReserved target = false) :
      Planned k (.assign target e)
        (preparation e ++ [Action.bind (temporary (k + 1)) value] ++
          [Action.bind target (.variable (temporary (k + 1)))])
  | check {k : Nat} {relation : Relation} {left right : Expr} {l r : Operand}
      (first : Denotes left l) (second : Denotes right r) :
      Planned k (.check relation left right)
        (preparation left ++ [Action.bind (temporary (k + 1)) l] ++
          (preparation right ++ [Action.bind (temporary (k + 2)) r]) ++
          [Action.check relation (temporary (k + 1)) (temporary (k + 2))])

theorem statement_ok
    {s : Statement} {actions : List Action} {n n' : Numbering}
    (h : (statement s).runFrom n = (.ok actions, n')) :
    Planned n.temporaries s actions := by
  cases s with
  | request r =>
      obtain ⟨⟨actions', sent⟩, n₁, hrequest, hrest⟩ := runFrom_bind_ok h
      obtain ⟨haddressable, rfl, -, rfl⟩ := request_ok hrequest
      cases hrest
      exact Planned.request haddressable
  | declare names =>
      obtain ⟨hfree, rfl, -⟩ := declaration_ok h
      exact Planned.declare hfree
  | assign target value =>
      obtain ⟨⟨evaluation, name⟩, n₁, hexpression, hrest⟩ := runFrom_bind_ok h
      obtain ⟨target', n₂, huser, hrest₂⟩ := runFrom_bind_ok hrest
      obtain ⟨operand, hdenotes, rfl, rfl, -⟩ := expression_ok hexpression
      obtain ⟨hfree, rfl, rfl⟩ := userName_ok huser
      cases hrest₂
      exact Planned.assign hdenotes hfree
  | check relation left right =>
      obtain ⟨⟨first, leftName⟩, n₁, hleft, hrest⟩ := runFrom_bind_ok h
      obtain ⟨⟨second, rightName⟩, n₂, hright, hrest₂⟩ := runFrom_bind_ok hrest
      obtain ⟨l, hl, rfl, rfl, hn₁⟩ := expression_ok hleft
      obtain ⟨r, hr, rfl, rfl, -⟩ := expression_ok hright
      cases hrest₂
      rw [hn₁]
      exact Planned.check hl hr

/-- The actions of statements, each after some number of temporaries. -/
inductive PlannedAll : List Statement → List Action → Prop
  | nil : PlannedAll [] []
  | cons {k : Nat} {s : Statement} {ss : List Statement} {as bs : List Action}
      (first : Planned k s as) (rest : PlannedAll ss bs) : PlannedAll (s :: ss) (as ++ bs)

theorem statements_ok
    {ss : List Statement} {actions : List Action} {n n' : Numbering}
    (h : (statements ss).runFrom n = (.ok actions, n')) : PlannedAll ss actions := by
  induction ss generalizing actions n n' with
  | nil =>
      cases h
      exact PlannedAll.nil
  | cons s ss ih =>
      obtain ⟨first, n₁, hfirst, hrest⟩ := runFrom_bind_ok h
      obtain ⟨more, n₂, hmore, hrest₂⟩ := runFrom_bind_ok hrest
      cases hrest₂
      exact PlannedAll.cons (statement_ok hfirst) (ih hmore)

/-- A plan of a case: its first action starts the implicit terminal. -/
def PlanOf (c : TestCase) (p : Plan) : Prop :=
  ∃ body, PlannedAll c.statements body ∧ p.actions = .start implicitTerminal :: body

theorem testCases_ok
    {cs : List TestCase} {plans : List Plan} {n n' : Numbering}
    (h : (testCases cs).runFrom n = (.ok plans, n')) : List.Forall₂ PlanOf cs plans := by
  induction cs generalizing plans n n' with
  | nil =>
      cases h
      exact List.Forall₂.nil
  | cons c cs ih =>
      obtain ⟨p, n₁, hp, hrest⟩ := runFrom_bind_ok h
      obtain ⟨more, n₂, hmore, hrest₂⟩ := runFrom_bind_ok hrest
      cases hrest₂
      obtain ⟨function, n₃, -, hp⟩ := runFrom_bind_ok hp
      obtain ⟨body, n₄, hbody, hp⟩ := runFrom_bind_ok hp
      cases hp
      exact List.Forall₂.cons ⟨body, statements_ok hbody, rfl⟩ (ih hmore)

theorem suite_ok
    {file : CaseFile} {suite : Suite} (h : file.suite = .ok suite) :
    List.Forall₂ PlanOf file.cases suite.plans := by
  rcases hrun : (Plan.suite file).runFrom {} with ⟨result, n⟩
  rw [CaseFile.suite, hrun] at h
  obtain rfl : result = .ok suite := h
  obtain ⟨plans, n₁, hplans, hrest⟩ := runFrom_bind_ok hrun
  cases hrest
  exact testCases_ok hplans

end Plan
end CaseSuite
