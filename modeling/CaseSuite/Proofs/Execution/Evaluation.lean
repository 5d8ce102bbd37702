import CaseSuite.Proofs.Execution.Asking

/-!
# Requests get their own answers

A request that is waited for goes through a queue in which earlier work may still stand, a worker
that may be busy with it, and a connection on which rows of earlier queries may be left.  None of
this shows in its value: over the scripted database it is the answer of the script to the query of
the request, in every case and along every schedule.
-/

namespace CaseSuite

open Terminal (Task)

namespace Case

/-! ## Over the scripted database -/

section Scripted

variable {script : Script} {env : Environment} {p : Plan} {m m' : Running Memory}
  {h : List Happening} {r : Request} {i : Nat} {tmp : String} {rest : List Action}
  {given : List Task} {names : Bindings} {v : Value}

theorem isQuiet_answerCall (r : Request) : (Run.answerCall r).stage.isQuiet = true := by
  unfold Run.answerCall
  split <;> rfl

/-- A request that has come to its read finds its answer due. -/
theorem due_of_reading
    (hchronicle : Chronicle p m h) (hfaithful : Faithful script m h)
    (hsafe : ∀ query message, .execute query ∈ given → script.response query ≠ .crash message)
    (hthread : m.thread = .calling i (Run.answerCall r).stage (some tmp) rest)
    (hgiven : givenOn i h = given ++ r.tasks) (hdrained : Drained m i) {t : Terminal}
    (ht : m.terminals[i]? = some t) : Due script r given t (m.stagesOn i) i h where
  tended := hchronicle.tended i t ht
  quiet stage hstage := by
    rw [Running.stagesOn, hthread] at hstage
    have hcurrent := Terminal.mem_stagesOf.mp hstage
    cases hcurrent
    exact isQuiet_answerCall r
  drained := hdrained t ht
  stays := by
    have hbody := hchronicle.tells
    rw [hthread] at hbody
    exact InBody.shutdown_notMem hbody i
  tells := ⟨_, hfaithful.tells i t ht⟩
  departing := hfaithful.departing i t ht
  handed := hgiven
  safe := hsafe

/-- Along every schedule a request yields its own answer. -/
theorem Yielding.run
    (hyielding : Yielding r i tmp rest given names v m h) (hchronicle : Chronicle p m h)
    (hfaithful : Faithful script m h)
    (hname : terminalOf? names (Plan.terminalName r.target) = some i)
    (hsafe : ∀ query message, .execute query ∈ given → script.response query ≠ .crash message)
    (hanswer : script.answer? r = some v) {movers : List Mover}
    (hrun : m.runSchedule Memory.database env movers = some m') :
    ∃ h', Yielding r i tmp rest given names v m' h' := by
  induction movers generalizing m h with
  | nil =>
      cases hrun
      exact ⟨h, hyielding⟩
  | cons mover movers ih =>
      obtain ⟨next, hmove, hrest⟩ := Option.bind_eq_some_iff.mp hrun
      have hturn := turn_of_move hmove
      refine ih (hyielding.turn hname ?_ hturn) (hchronicle.turn hturn)
        (hfaithful.turn hchronicle hturn) hrest
      intro hthread hgiven hdrained t ht
      exact (due_of_reading hchronicle hfaithful hsafe hthread hgiven hdrained ht).reads hanswer

/-- Where nobody can move any more, the value is bound. -/
theorem Yielding.final
    (hyielding : Yielding r i tmp rest given names v m h) (hsound : m.Sound)
    (hname : terminalOf? names (Plan.terminalName r.target) = some i)
    (hfinal : ∀ m', ¬ Running.Step Memory.database env m m') : Bound names tmp rest v m := by
  cases hyielding with
  | underway progress unbound =>
      subst unbound
      exact (progress.not_final hname hsound hfinal).elim
  | arrived thread binds =>
      refine ⟨⟨[], binds⟩, ?_⟩
      rintro x as rfl
      rcases hsound.final hfinal with ⟨outcome, hreturned⟩ | ⟨a, later, hthread, hstuck⟩
      · rw [thread] at hreturned
        cases hreturned
      · rw [thread] at hthread
        cases hthread
        simp [Running.act, Running.evaluate, binds, List.lookup_cons_self] at hstuck
  | past binds => exact binds

end Scripted

/-! ## Coming to a request -/

/-- What the thread has to do next is still ahead, or the body has ended without it. -/
def Thread.Nears (place : List Action) : Thread → Prop
  | .body as | .calling _ _ _ as => place <:+ as
  | .ending _ _ | .returned _ => True

theorem Turn.nears
    {σ : Type} {db : Database σ} {env : Environment} {m m' : Running σ} {hs : List Happening}
    {place : List Action} (hturn : Turn db env m hs m') (hnears : m.thread.Nears place)
    (hbefore : m.thread ≠ .body place) : m'.thread.Nears place := by
  have hnext : ∀ {a : Action} {as : List Action}, m.thread = .body (a :: as) → place <:+ as := by
    intro a as hthread
    rw [hthread] at hnears hbefore
    rcases List.suffix_cons_iff.mp hnears with heq | hlater
    · exact absurd (by rw [heq]) hbefore
    · exact hlater
  cases hturn with
  | work => exact hnears
  | finish | refuse | fail | tear | «return» => trivial
  | start hthread | evaluate hthread | pass hthread | begin hthread => exact hnext hthread
  | goOn hthread =>
      rw [hthread] at hnears
      exact hnears
  | answer hthread =>
      rename_i answer _ _ _ _ _ _
      rw [hthread] at hnears
      cases answer with
      | error e => trivial
      | _ => exact hnears

/-- A body does not get past a place without coming to it. -/
theorem nears_run
    {σ : Type} {db : Database σ} {env : Environment} {m m' : Running σ} {place : List Action}
    {movers : List Mover} (hnears : m.thread.Nears place)
    (hrun : m.runSchedule db env movers = some m') :
    (∃ first later m₀, movers = first ++ later ∧ m.runSchedule db env first = some m₀ ∧
      m₀.thread = .body place) ∨ m'.thread.Nears place := by
  induction movers generalizing m with
  | nil =>
      cases hrun
      exact Or.inr hnears
  | cons mover movers ih =>
      by_cases hhere : m.thread = .body place
      · exact Or.inl ⟨[], mover :: movers, m, rfl, rfl, hhere⟩
      · obtain ⟨next, hmove, hrest⟩ := Option.bind_eq_some_iff.mp hrun
        rcases ih ((turn_of_move hmove).nears hnears hhere) hrest with
          ⟨first, later, m₀, rfl, hfirst, hthread⟩ | hlater
        · refine Or.inl ⟨mover :: first, later, m₀, rfl, ?_, hthread⟩
          exact Option.bind_eq_some_iff.mpr ⟨next, hmove, hfirst⟩
        · exact Or.inr hlater

end Case

/-! ## Where a plan comes to a request -/

/-- The expressions of a statement, in the order in which they are evaluated. -/
def Statement.exprs : Statement → List Expr
  | .assign _ value => [value]
  | .check _ left right => [left, right]
  | .request _ | .declare _ => []

namespace Plan

/-- The actions that evaluate expressions, after a number of temporaries. -/
inductive PreparedAll : Nat → List Expr → List Action → Prop
  | nil (k : Nat) : PreparedAll k [] []
  | cons {k : Nat} {e : Expr} {es : List Expr} {value : Operand} {as : List Action}
      (denotes : Denotes e value) (rest : PreparedAll (k + 1) es as) :
      PreparedAll k (e :: es) (preparation e ++ .bind (temporary (k + 1)) value :: as)

theorem PreparedAll.split
    {k : Nat} {first second : List Expr} {e : Expr} {as : List Action}
    (h : PreparedAll k (first ++ e :: second) as) :
    ∃ es value later, PreparedAll k first es ∧ Denotes e value ∧
      PreparedAll (k + first.length + 1) second later ∧
      as = es ++ (preparation e ++ .bind (temporary (k + first.length + 1)) value :: later) := by
  induction first generalizing k as with
  | nil =>
      cases h with
      | cons denotes rest => exact ⟨[], _, _, PreparedAll.nil k, denotes, rest, rfl⟩
  | cons other first ih =>
      cases h with
      | cons denotes rest =>
          obtain ⟨es, value, later, hfirst, hdenotes, hlater, rfl⟩ := ih rest
          have hcount : k + 1 + first.length + 1 = k + (other :: first).length + 1 := by
            rw [List.length_cons]
            omega
          rw [hcount] at hlater ⊢
          refine ⟨_, value, later, PreparedAll.cons denotes hfirst, hdenotes, hlater, ?_⟩
          simp

/-- An accepted statement evaluates its expressions first; an assignment then copies its one. -/
theorem Planned.prepared
    {k : Nat} {s : Statement} {as : List Action} (h : Planned k s as) :
    ∃ es later, PreparedAll k s.exprs es ∧ as = es ++ later ∧
      ∀ x e, s = .assign x e → later = [.bind x (.variable (temporary (k + 1)))] := by
  cases h with
  | request => exact ⟨[], _, PreparedAll.nil k, rfl, by simp⟩
  | declare => exact ⟨[], _, PreparedAll.nil k, rfl, by simp⟩
  | assign denotes free =>
      refine ⟨_, _, PreparedAll.cons denotes (PreparedAll.nil _), rfl, ?_⟩
      rintro x e ⟨⟩
      rfl
  | check first second =>
      rename_i relation _ _ _ _
      have hprepared := PreparedAll.cons first (PreparedAll.cons second (PreparedAll.nil (k + 2)))
      refine ⟨_, [.check relation (temporary (k + 1)) (temporary (k + 2))], hprepared, ?_, by simp⟩
      simp

theorem PlannedAll.split
    {before after : List Statement} {s : Statement} {as : List Action}
    (h : PlannedAll (before ++ s :: after) as) :
    ∃ k bs cs ds, PlannedAll before bs ∧ Planned k s cs ∧ as = bs ++ (cs ++ ds) := by
  induction before generalizing as with
  | nil =>
      cases h with
      | cons first rest => exact ⟨_, [], _, _, PlannedAll.nil, first, rfl⟩
  | cons other before ih =>
      cases h with
      | cons first rest =>
          obtain ⟨k, bs, cs, ds, hbefore, hplanned, rfl⟩ := ih rest
          exact ⟨k, _, cs, ds, PlannedAll.cons first hbefore, hplanned,
            (List.append_assoc _ _ _).symm⟩

/-- Where a plan comes to a request: after the actions of the statements before it and of the
expressions before it in its own statement.  The request is sent and its answer bound to a
temporary; an assignment then copies the temporary. -/
structure ComesTo (p : Plan) (before : List Statement) (s : Statement) (first : List Expr)
    (r : Request) (tmp : String) (rest : List Action) : Prop where
  place : ∃ k bs es, PlannedAll before bs ∧ PreparedAll k first es ∧
    tmp = temporary (k + first.length + 1) ∧
    p.actions = .start implicitTerminal ::
      (bs ++ (es ++ (sending r ++ .bind tmp (answer r) :: rest)))
  copies : ∀ x e, s = .assign x e → ∃ as, rest = .bind x (.variable tmp) :: as

/-- The plan of an accepted case comes to each request whose value the case uses. -/
theorem PlanOf.comesTo
    {c : TestCase} {p : Plan} (h : PlanOf c p) {before after : List Statement} {s : Statement}
    {first second : List Expr} {r : Request} (hstatements : c.statements = before ++ s :: after)
    (hexprs : s.exprs = first ++ .request r :: second) :
    ∃ tmp rest, p.ComesTo before s first r tmp rest := by
  obtain ⟨body, hbody, hactions⟩ := h
  rw [hstatements] at hbody
  obtain ⟨k, bs, cs, ds, hbefore, hplanned, rfl⟩ := hbody.split
  obtain ⟨es, later, hprepared, rfl, hassign⟩ := hplanned.prepared
  rw [hexprs] at hprepared
  obtain ⟨es', value, more, hfirst, hdenotes, hsecond, rfl⟩ := hprepared.split
  obtain rfl : value = answer r := by
    cases hdenotes
    rfl
  refine ⟨_, more ++ (later ++ ds), ⟨k, bs, es', hbefore, hfirst, rfl, ?_⟩, ?_⟩
  · rw [hactions]
    simp [preparation]
  · rintro x e rfl
    obtain ⟨rfl, rfl⟩ : first = [] ∧ second = [] := by
      cases first with
      | nil =>
          cases second with
          | nil => exact ⟨rfl, rfl⟩
          | cons => cases hexprs
      | cons other first => simp [Statement.exprs] at hexprs
    cases hsecond
    rw [hassign x e rfl]
    exact ⟨ds, rfl⟩

end Plan

/-! ## The answers of a case -/

namespace Case

/-- From a state on, every schedule ends, the body goes on until the value is bound to the
temporary, and where nobody can move any more it has been bound. -/
structure YieldsFrom (env : Environment) (m₀ : Running Memory) (tmp : String) (rest : List Action)
    (v : Value) : Prop where
  ends : Acc (fun m' m => Running.Step Memory.database env m m') m₀
  binds : ∀ movers m, m₀.runSchedule Memory.database env movers = some m →
    m.hasLeft = false ∧ m.names = m₀.names ∨
      ∃ newer, m.names = newer ++ (tmp, .value v) :: m₀.names
  final : ∀ movers m, m₀.runSchedule Memory.database env movers = some m →
    (∀ m', ¬ Running.Step Memory.database env m m') → Bound m₀.names tmp rest v m

/-- However a plan is scheduled, the thread comes to a request before it gets past it; and if the
database has survived what its terminal was given by then, the request yields the answer that the
script has for it. -/
structure Evaluates (env : Environment) (w : Memory) (p : Plan) (r : Request) (tmp : String)
    (rest : List Action) : Prop where
  reached : ∀ movers m, (Running.new w p).runSchedule Memory.database env movers = some m →
    (∃ first later m₀, movers = first ++ later ∧
      (Running.new w p).runSchedule Memory.database env first = some m₀ ∧
      m₀.thread = .body (Plan.sending r ++ .bind tmp (Plan.answer r) :: rest)) ∨
    m.thread.Nears (Plan.sending r ++ .bind tmp (Plan.answer r) :: rest)
  yields : ∀ movers m₀ i v,
    (Running.new w p).runSchedule Memory.database env movers = some m₀ →
    m₀.thread = .body (Plan.sending r ++ .bind tmp (Plan.answer r) :: rest) →
    terminalOf? m₀.names (Plan.terminalName r.target) = some i →
    (∀ query message,
      .execute query ∈ givenOn i ((Running.new w p).history Memory.database env movers) →
        w.script.response query ≠ .crash message) →
    w.script.answer? r = some v → YieldsFrom env m₀ tmp rest v

theorem yieldsFrom_of_body
    {env : Environment} {w : Memory} {p : Plan} {m₀ : Running Memory} {r : Request} {i : Nat}
    {tmp : String} {rest : List Action} {v : Value} {h : List Happening}
    (hchronicle : Chronicle p m₀ h) (hfaithful : Faithful w.script m₀ h)
    (hsync : r.timing = .sync)
    (hthread : m₀.thread = .body (Plan.sending r ++ .bind tmp (Plan.answer r) :: rest))
    (hname : terminalOf? m₀.names (Plan.terminalName r.target) = some i)
    (hsafe : ∀ query message, .execute query ∈ givenOn i h →
      w.script.response query ≠ .crash message)
    (hanswer : w.script.answer? r = some v) : YieldsFrom env m₀ tmp rest v := by
  have hstart : Yielding r i tmp rest (givenOn i h) m₀.names v m₀ h := by
    refine .underway (.ask hthread (asks_sending hsync) (List.nil_append _) ?_ ?_) rfl
    · exact (List.append_nil _).symm
    · simp [Request.calls]
  refine ⟨acc_step _ _ _, ?_, ?_⟩
  · intro movers m hrun
    obtain ⟨h', hyielding⟩ := hstart.run hchronicle hfaithful hname hsafe hanswer hrun
    cases hyielding with
    | underway progress unbound => exact Or.inl ⟨progress.hasLeft, unbound⟩
    | arrived thread binds => exact Or.inr ⟨[], binds⟩
    | past binds => exact Or.inr binds.temporary
  · intro movers m hrun hfinal
    obtain ⟨h', hyielding⟩ := hstart.run hchronicle hfaithful hname hsafe hanswer hrun
    exact hyielding.final (hchronicle.run hrun).sound hname hfinal

theorem evaluates_of_comesTo
    {env : Environment} {w : Memory} {p : Plan} {before : List Statement} {s : Statement}
    {first : List Expr} {r : Request} {tmp : String} {rest : List Action}
    (hfetches : w.script.fetches = []) (hsync : r.timing = .sync)
    (h : p.ComesTo before s first r tmp rest) : Evaluates env w p r tmp rest where
  reached movers m hrun := by
    refine nears_run ?_ hrun
    obtain ⟨k, bs, es, -, -, -, hactions⟩ := h.place
    refine ⟨.start Plan.implicitTerminal :: (bs ++ es), ?_⟩
    rw [hactions]
    simp
  yields movers m₀ i v hrun hthread hname hsafe hanswer := by
    have hchronicle := (chronicle_new w p).run hrun
    have hfaithful := (faithful_new hfetches p).run (chronicle_new w p) hrun
    rw [List.nil_append] at hchronicle hfaithful
    exact yieldsFrom_of_body hchronicle hfaithful hsync hthread hname hsafe hanswer

/-- Every request of an accepted case that is waited for and whose value is used yields its own
answer, whatever the statements before it and whoever moves. -/
theorem request_yields_own_answer
    {file : CaseFile} {suite : Suite} (h : file.suite = .ok suite) (env : Environment) {w : Memory}
    (hfetches : w.script.fetches = []) :
    List.Forall₂ (fun c p => ∀ before s after first r second,
      c.statements = before ++ s :: after → s.exprs = first ++ .request r :: second →
      r.timing = .sync →
      ∃ tmp rest, p.ComesTo before s first r tmp rest ∧ Evaluates env w p r tmp rest)
      file.cases suite.plans := by
  refine (Plan.suite_ok h).imp ?_
  intro c p hplan before s after first r second hstatements hexprs hsync
  obtain ⟨tmp, rest, hcomes⟩ := hplan.comesTo hstatements hexprs
  exact ⟨tmp, rest, hcomes, evaluates_of_comesTo hfetches hsync hcomes⟩

/-- A case that leaves a query with rows and the fetch of them under way, and then waits for a
second query under the same name. -/
def overtaking : TestCase :=
  ⟨"overtaking", 1,
    [.request ⟨.implicit, .async, "p", true⟩,
      .assign "x" (.request ⟨.implicit, .sync, "q", true⟩)]⟩

/-- The plan of that case. -/
def overtakingPlan : Plan :=
  ⟨"test_1_overtaking",
    [.start "case_terminal", .run (.call "case_terminal" .execute (some "p")),
      .run (.call "case_terminal" .store (some "result")),
      .run (.call "case_terminal" .execute (some "q")),
      .run (.call "case_terminal" .store (some "result")),
      .run (.call "case_terminal" .wait none),
      .bind "tmp_1" (.call "case_terminal" .rows (some "result")), .bind "x" (.variable "tmp_1")]⟩

theorem suite_overtaking :
    CaseFile.suite ⟨"", [overtaking]⟩ = .ok ⟨"", [overtakingPlan]⟩ :=
  rfl

/-- The first query has a row, the second one only a warning. -/
def overtakenScript : Memory :=
  { script := { responses := [("p", .rows [[]]), ("q", .warning "slow")] } }

/-- The thread has sent the first query and its fetch before the worker does anything. -/
def overtakingMoves : List Mover := List.replicate 8 .thread

/-- It sends the second ones too and waits; the worker runs everything, and the case returns. -/
def overtakenMoves : List Mover :=
  List.flatten [List.replicate 8 .thread, List.replicate 25 (.worker 0), List.replicate 10 .thread,
    List.replicate 7 (.worker 0), List.replicate 2 .thread]

/-- Where a schedule leads from the start of that case. -/
def overtakingAfter (movers : List Mover) : Running Memory :=
  ((Running.new overtakenScript overtakingPlan).runSchedule Memory.database ⟨"", true⟩ movers).getD
    (Running.new overtakenScript overtakingPlan)

theorem givenOn_overtaking :
    givenOn 0 ((Running.new overtakenScript overtakingPlan).history Memory.database ⟨"", true⟩
      overtakingMoves) = [.execute "p", .fetch "result"] := by
  cbv

theorem request_yields_own_answer_overtaking :
    CaseFile.suite ⟨"", [overtaking]⟩ = .ok ⟨"", [overtakingPlan]⟩ ∧
      (Running.new overtakenScript overtakingPlan).runSchedule Memory.database ⟨"", true⟩
        overtakingMoves = some (overtakingAfter overtakingMoves) ∧
      (overtakingAfter overtakingMoves).runSchedule Memory.database ⟨"", true⟩ overtakenMoves =
        some (overtakingAfter (overtakingMoves ++ overtakenMoves)) ∧
      (overtakingAfter (overtakingMoves ++ overtakenMoves)).hasLeft = true ∧
      ∃ newer, (overtakingAfter (overtakingMoves ++ overtakenMoves)).names =
        newer ++ ("tmp_1", .value (.list [])) :: (overtakingAfter overtakingMoves).names := by
  have hfetches : overtakenScript.script.fetches = [] := rfl
  have hcases := request_yields_own_answer suite_overtaking ⟨"", true⟩ hfetches
  obtain ⟨tmp, rest, hcomes, hevaluates⟩ := (List.forall₂_cons.mp hcases).1
    [.request ⟨.implicit, .async, "p", true⟩] _ [] [] _ [] rfl rfl rfl
  obtain ⟨rfl, rfl⟩ : tmp = "tmp_1" ∧ rest = [.bind "x" (.variable "tmp_1")] := by
    obtain ⟨k, bs, es, hbs, hes, -, hactions⟩ := hcomes.place
    cases hes
    cases hbs with
    | cons first others =>
        cases others
        cases first
        simpa [overtakingPlan, Plan.sending, Plan.answer, Plan.terminalName, Run.resultName,
          Plan.implicitTerminal, eq_comm] using hactions
  have hfirst : (Running.new overtakenScript overtakingPlan).runSchedule Memory.database
      ⟨"", true⟩ overtakingMoves = some (overtakingAfter overtakingMoves) := by cbv
  have hlater : (overtakingAfter overtakingMoves).runSchedule Memory.database ⟨"", true⟩
      overtakenMoves = some (overtakingAfter (overtakingMoves ++ overtakenMoves)) := by cbv
  have hleft : (overtakingAfter (overtakingMoves ++ overtakenMoves)).hasLeft = true := by cbv
  have hsafe : ∀ query message,
      .execute query ∈ givenOn 0 ((Running.new overtakenScript overtakingPlan).history
        Memory.database ⟨"", true⟩ overtakingMoves) →
      overtakenScript.script.response query ≠ .crash message := by
    rw [givenOn_overtaking]
    intro query message hquery
    obtain rfl : query = "p" := by simpa using hquery
    simp [overtakenScript, Script.response]
  have hyields :=
    hevaluates.yields overtakingMoves _ 0 (.list []) hfirst (by rfl) (by rfl) hsafe rfl
  refine ⟨suite_overtaking, hfirst, hlater, hleft, ?_⟩
  rcases hyields.binds _ _ hlater with ⟨hstays, -⟩ | hbound
  · rw [hleft] at hstays
    cases hstays
  · exact hbound

end Case

end CaseSuite
