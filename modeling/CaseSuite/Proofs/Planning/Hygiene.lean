import CaseSuite.Proofs.Planning.Temporaries
import Mathlib

/-!
# Plans are hygienic

A plan mixes names that its case chose with names that the planner adds: the implicit terminal and
one temporary for each expression.  The two never meet.  The plan binds the implicit terminal first,
then the temporaries in order, each once, and no reserved name besides; it reads each temporary once
and after its binding.  A run therefore finds under such a name what was bound to it, whatever the
case has bound in between.
-/

namespace CaseSuite

open Plan (Reserved IsTemporary implicitTerminal temporariesAfter)

/-! ## Plans -/

/-- The names of the planner in the plan of a case are kept apart from those of the case. -/
structure Plan.Hygienic (c : TestCase) (p : Plan) : Prop where
  first : p.actions.head? = some (.start implicitTerminal)
  /-- Of the reserved names exactly these are bound, in this order and each once. -/
  bound : (p.actions.flatMap Action.binds).filter Reserved =
    implicitTerminal :: (List.range' 1 c.exprs.length).map Plan.temporary
  read : (p.actions.flatMap Action.reads).filter IsTemporary =
    (List.range' 1 c.exprs.length).map Plan.temporary
  /-- A reserved name that is read has been bound before. -/
  order : ∀ before a after, p.actions = before ++ a :: after →
    ∀ name ∈ a.reads, Reserved name → name ∈ before.flatMap Action.binds
  /-- The calls are those of the case, those without a named target on the implicit terminal. -/
  calls : p.actions.filterMap Action.call? =
    c.outgoing.map fun (target, method) => (Plan.terminalName target, method)

namespace Plan

theorem SerialPlan.hygienic {c : TestCase} {p : Plan} (h : SerialPlan c p) : p.Hygienic c := by
  obtain ⟨body, hplanned, hserial, hactions⟩ := h
  have hscope : ReadsBound [] p.actions := by
    rw [hactions]
    exact ⟨by simp [Action.reads], hserial.order _ (by simp [Action.binds])⟩
  constructor
  · rw [hactions]
    rfl
  · rw [hactions, List.flatMap_cons, List.filter_append, hserial.bound]
    simp [Action.binds, temporariesAfter]
  · rw [hactions, List.flatMap_cons, List.filter_append, hserial.read]
    simp [Action.reads, temporariesAfter]
  · intro before a after hsplit name hname hreserved
    rw [hsplit] at hscope
    exact (readsBound_append.mp hscope).2.1 name hname hreserved
  · rw [hactions]
    exact hplanned.calls

theorem SerialPlan.callable {c : TestCase} {p : Plan} (h : SerialPlan c p) :
    ∀ a ∈ p.actions, a.Callable := by
  obtain ⟨body, hplanned, -, hactions⟩ := h
  intro a ha
  rw [hactions] at ha
  rcases List.mem_cons.mp ha with rfl | hin
  · intro _ _ _ _ hoperand
    cases hoperand
  · exact hplanned.callable a hin

theorem Hygienic.count_le_one {c : TestCase} {p : Plan} (h : p.Hygienic c) {name : String}
    (hreserved : Reserved name) : (p.actions.flatMap Action.binds).count name ≤ 1 := by
  have hnodup : ((p.actions.flatMap Action.binds).filter Reserved).Nodup := by
    rw [h.bound, List.nodup_cons]
    refine ⟨?_, nodup_temporariesAfter 0 _⟩
    intro hmem
    exact not_isTemporary_implicitTerminal
      (isTemporary_of_mem_temporariesAfter (k := 0) hmem)
  rw [← List.count_filter (p := Reserved) (by simpa using hreserved)]
  exact List.nodup_iff_count_le_one.mp hnodup name

end Plan

/-! ## Runs -/

namespace Case

variable {σ : Type} {db : Database σ} {env : Environment} {m m' : Running σ} {p : Plan}

/-- What every turn keeps holds wherever a schedule leads. -/
theorem Running.Reaches.keeps {P : Running σ → Prop}
    (hkeeps : ∀ {m m' hs}, Turn db env m hs m' → P m → P m') (hreaches : m.Reaches db env m')
    (h : P m) : P m' := by
  obtain ⟨movers, hrun⟩ := hreaches
  induction movers generalizing m with
  | nil =>
      cases hrun
      exact h
  | cons mover movers ih =>
      obtain ⟨next, hmove, hrest⟩ := Option.bind_eq_some_iff.mp hrun
      exact ih (hkeeps (turn_of_move hmove) h) hrest

/-- The names that a case has bound, the earliest first. -/
def Running.bound (m : Running σ) : List String :=
  (m.names.map Prod.fst).reverse

theorem Running.bound_resume (m : Running σ) (target : Option String) (b : Binding)
    (rest : List Action) : (m.resume target b rest).bound = m.bound ++ target.toList := by
  cases target <;> simp [Running.bound, Running.resume]

theorem binds_of_operand? {a : Action} {target : Option String} {value : Operand}
    (h : a.operand? = some (target, value)) : a.binds = target.toList := by
  cases a <;> cases h <;> rfl

/-- The case has bound what the plan binds in front of its place. -/
def Thread.Traces (p : Plan) (bound : List String) : Thread → Prop
  | .body rest => ∃ done, p.actions = done ++ rest ∧ bound = done.flatMap Action.binds
  | .calling _ stage target rest => (target.isSome → stage.Reads) ∧
      ∃ done, p.actions = done ++ rest ∧ bound ++ target.toList = done.flatMap Action.binds
  | .ending _ _ | .returned _ => bound <+: p.actions.flatMap Action.binds

/-- Wherever a case is, what it has bound is a beginning of what the plan binds. -/
theorem Thread.Traces.isPrefix {bound : List String} {thread : Thread}
    (h : thread.Traces p bound) : bound <+: p.actions.flatMap Action.binds := by
  cases thread with
  | body rest =>
      obtain ⟨done, hactions, rfl⟩ := h
      rw [hactions, List.flatMap_append]
      exact List.prefix_append _ _
  | calling i stage target rest =>
      obtain ⟨-, done, hactions, hbound⟩ := h
      rw [hactions, List.flatMap_append, ← hbound, List.append_assoc]
      exact List.prefix_append _ _
  | ending caller outcome => exact h
  | returned outcome => exact h

theorem Turn.traces {hs : List Happening} (hturn : Turn db env m hs m')
    (hcallable : ∀ a ∈ p.actions, a.Callable) (h : m.thread.Traces p m.bound) :
    m'.thread.Traces p m'.bound := by
  have hprefix := h.isPrefix
  -- past an action the names are those in front of it and its own
  have hpast : ∀ {a : Action} {rest : List Action}, m.thread = .body (a :: rest) →
      ∃ done, p.actions = done ++ rest ∧ m.bound ++ a.binds = done.flatMap Action.binds := by
    intro a rest hthread
    rw [hthread] at h
    obtain ⟨done, hactions, hbound⟩ := h
    exact ⟨done ++ [a], by simpa using hactions, by simp [hbound]⟩
  cases hturn with
  | work => exact h
  | finish | refuse | fail => exact hprefix
  | tear hthread | «return» hthread =>
      rw [hthread] at h
      exact h
  | start hthread =>
      obtain ⟨done, hactions, hbound⟩ := hpast hthread
      exact ⟨done, hactions, by simpa [Running.bound, Action.binds] using hbound⟩
  | evaluate hthread ha =>
      obtain ⟨done, hactions, hbound⟩ := hpast hthread
      rw [Running.bound_resume, ← binds_of_operand? ha]
      exact ⟨done, hactions, hbound⟩
  | pass hthread =>
      obtain ⟨done, hactions, hbound⟩ := hpast hthread
      rw [Action.binds, List.append_nil] at hbound
      exact ⟨done, hactions, hbound⟩
  | @begin a target name method argument i call rest hthread ha hi hcall =>
      obtain ⟨done, hactions, hbound⟩ := hpast hthread
      refine ⟨?_, done, hactions, by rw [← binds_of_operand? ha]; exact hbound⟩
      rw [hthread] at h
      obtain ⟨before, hbefore, -⟩ := h
      obtain ⟨call', hcall', hreads⟩ := hcallable a (by simp [hbefore]) _ _ _ _ ha
      rw [hcall] at hcall'
      cases hcall'
      exact hreads
  | goOn hthread ht hstep =>
      rw [hthread] at h
      obtain ⟨hreads, hplace⟩ := h
      refine ⟨?_, hplace⟩
      intro hsome
      obtain ⟨answer, hdone, -⟩ := reads_callStep (hreads hsome) hstep
      cases hdone
  | @answer i stage answer target rest t t' hthread ht hstep =>
      rw [hthread] at h
      obtain ⟨hreads, done, hactions, hbound⟩ := h
      cases answer with
      | error e => exact hprefix
      | value v =>
          rw [Running.receive, Running.bound_resume]
          exact ⟨done, hactions, hbound⟩
      | nothing =>
          rcases target with _ | name
          · rw [Option.toList_none, List.append_nil] at hbound
            exact ⟨done, hactions, hbound⟩
          · obtain ⟨answer, hdone, hsome⟩ := reads_callStep (hreads rfl) hstep
            cases hdone
            exact absurd rfl hsome

/-- The first binding is that of the implicit terminal, to the first terminal; before it there is
none and no terminal. -/
def Headed (p : Plan) (m : Running σ) : Prop :=
  0 < m.terminals.length ∧ [(implicitTerminal, .terminal 0)] <:+ m.names ∨
    m.names = [] ∧ (m.terminals = [] ∧ m.thread = .body p.actions ∨ m.hasLeft = true)

theorem Turn.headed {hs : List Happening} (hturn : Turn db env m hs m')
    (hfirst : p.actions.head? = some (.start implicitTerminal)) (h : Headed p m) :
    Headed p m' := by
  obtain ⟨rest, hactions⟩ := List.head?_eq_some_iff.mp hfirst
  rcases h with ⟨hstarted, hsuffix⟩ | ⟨hnames, ⟨hterminals, hthread⟩ | hleft⟩
  · obtain ⟨newer, hnewer⟩ := hturn.names_suffix
    refine Or.inl ⟨hstarted.trans_le hturn.length_le, ?_⟩
    rw [hnewer]
    exact hsuffix.trans (List.suffix_append _ _)
  · rw [hactions] at hthread
    cases hturn with
    | work ht => simp [hterminals] at ht
    | start hstart =>
        left
        rw [hthread] at hstart
        cases hstart
        simp [hnames, hterminals]
    | refuse hstart => exact Or.inr ⟨hnames, Or.inr rfl⟩
    | evaluate hother ha | begin hother ha =>
        rw [hthread] at hother
        cases hother
        cases ha
    | finish hother | pass hother | fail hother | goOn hother | answer hother | tear hother
    | «return» hother =>
        rw [hthread] at hother
        cases hother
  · -- once the body has ended, nothing is bound any more
    have hended : m'.names = m.names ∧ m'.hasLeft = true := by
      cases hturn with
      | work => exact ⟨rfl, hleft⟩
      | tear | «return» => exact ⟨rfl, rfl⟩
      | finish hthread | start hthread | refuse hthread | evaluate hthread | pass hthread
      | fail hthread | begin hthread | goOn hthread | answer hthread =>
          simp [Running.hasLeft, hthread] at hleft
    exact Or.inr ⟨hended.1.trans hnames, Or.inr hended.2⟩

/-- What a run of the plan of a case keeps. -/
structure Abides (p : Plan) (m : Running σ) : Prop where
  traces : m.thread.Traces p m.bound
  headed : Headed p m
  starts : m.thread.Starts p.starts (m.terminals.map (·.name))

theorem abides_new (w : σ) (p : Plan) : Abides p (Running.new w p) where
  traces := ⟨[], rfl, rfl⟩
  headed := Or.inr ⟨rfl, Or.inl ⟨rfl, rfl⟩⟩
  starts := rfl

theorem Abides.reaches {c : TestCase} (h : Abides p m) (hplan : Plan.SerialPlan c p)
    (hreaches : m.Reaches db env m') : Abides p m' := by
  refine hreaches.keeps ?_ h
  intro m m' hs hturn habides
  exact ⟨hturn.traces hplan.callable habides.traces,
    hturn.headed hplan.hygienic.first habides.headed, hturn.starts habides.starts⟩

/-- What is bound to a name that occurs once stays bound to it. -/
theorem lookup_append_of_count {newer names : Bindings} {name : String} {b : Binding}
    (hcount : ((newer ++ names).map Prod.fst).count name ≤ 1) (h : names.lookup name = some b) :
    (newer ++ names).lookup name = some b := by
  have hold : 0 < (names.map Prod.fst).count name := by
    rw [List.count_pos_iff]
    exact List.mem_map_of_mem (mem_of_lookup h)
  have hnew : name ∉ newer.map Prod.fst := by
    rw [List.map_append, List.count_append] at hcount
    rw [← List.count_eq_zero]
    omega
  have hnone : newer.lookup name = none := by
    rw [List.lookup_eq_none_iff]
    intro x hx
    rw [bne_iff_ne]
    rintro rfl
    exact hnew (List.mem_map_of_mem hx)
  rw [List.lookup_append, hnone, h, Option.none_or]

theorem Abides.count_le_one {c : TestCase} {name : String} (h : Abides p m)
    (hplan : p.Hygienic c) (hreserved : Reserved name) : (m.names.map Prod.fst).count name ≤ 1 := by
  have hbound : m.bound.count name ≤ 1 :=
    (h.traces.isPrefix.sublist.count_le name).trans (hplan.count_le_one hreserved)
  rwa [Running.bound, List.count_reverse] at hbound

/-- Bindings of reserved names along a run: the implicit terminal is the first terminal, what the
body reads next is bound, and what is bound stays. -/
structure Steady (m m' : Running σ) : Prop where
  implicit : ∀ b, m.names.lookup implicitTerminal = some b →
    b = .terminal 0 ∧ m.terminals.head?.map (·.name) = some implicitTerminal
  available : ∀ a rest, m.thread = .body (a :: rest) →
    ∀ name ∈ a.reads, Reserved name → ∃ b, m.names.lookup name = some b
  kept : ∀ name b, Reserved name → m.names.lookup name = some b → m'.names.lookup name = some b

theorem Running.Reaches.names_suffix (hreaches : m.Reaches db env m') : m.names <:+ m'.names := by
  refine hreaches.keeps (P := fun m' => m.names <:+ m'.names) ?_ (List.suffix_refl _)
  intro m₁ m₂ hs hturn h
  obtain ⟨newer, hnewer⟩ := hturn.names_suffix
  rw [hnewer]
  exact h.trans (List.suffix_append _ _)

theorem exists_lookup {names : Bindings} {name : String} (h : name ∈ names.map Prod.fst) :
    ∃ b, names.lookup name = some b := by
  rw [← Option.isSome_iff_exists, Option.isSome_iff_ne_none, ne_eq, List.lookup_eq_none_iff]
  intro hnone
  obtain ⟨x, hx, rfl⟩ := List.mem_map.mp h
  simpa using hnone x hx

theorem Thread.Starts.isPrefix {starts names : List String} {thread : Thread}
    (h : thread.Starts starts names) : names <+: starts := by
  cases thread with
  | body rest => exact ⟨_, h⟩
  | calling i stage target rest => exact ⟨_, h⟩
  | ending caller outcome => exact h
  | returned outcome => exact h

/-- The terminal that was started first is the implicit one. -/
theorem Abides.head_terminals (h : Abides p m)
    (hfirst : p.actions.head? = some (.start implicitTerminal))
    (hstarted : 0 < m.terminals.length) :
    m.terminals.head?.map (·.name) = some implicitTerminal := by
  obtain ⟨rest, hactions⟩ := List.head?_eq_some_iff.mp hfirst
  obtain ⟨later, hlater⟩ := h.starts.isPrefix
  obtain ⟨t, ts, hterminals⟩ := List.exists_cons_of_length_pos hstarted
  rw [Plan.starts, hactions, hterminals] at hlater
  rw [hterminals]
  exact congrArg List.head? hlater

/-- Where the implicit terminal is bound, it is the one that was started first. -/
theorem Abides.implicit {c : TestCase} {b : Binding} (h : Abides p m) (hplan : p.Hygienic c)
    (hb : m.names.lookup implicitTerminal = some b) :
    b = .terminal 0 ∧ m.terminals.head?.map (·.name) = some implicitTerminal := by
  rcases h.headed with ⟨hstarted, newer, hnewer⟩ | ⟨hnames, -⟩
  · have hcount := h.count_le_one hplan Plan.reserved_implicitTerminal
    rw [← hnewer] at hcount hb
    rw [lookup_append_of_count hcount List.lookup_cons_self] at hb
    cases hb
    exact ⟨rfl, h.head_terminals hplan.first hstarted⟩
  · rw [hnames] at hb
    cases hb

theorem Abides.steady {c : TestCase} (h : Abides p m) (hplan : Plan.SerialPlan c p)
    (hreaches : m.Reaches db env m') : Steady m m' where
  implicit _ hb := h.implicit hplan.hygienic hb
  available a rest hthread name hname hreserved := by
    have htraces := h.traces
    rw [hthread] at htraces
    obtain ⟨done, hactions, hbound⟩ := htraces
    have hmem := hplan.hygienic.order done a rest hactions name hname hreserved
    rw [← hbound, Running.bound, List.mem_reverse] at hmem
    exact exists_lookup hmem
  kept name b hreserved hb := by
    have hcount := (h.reaches hplan hreaches).count_le_one hplan.hygienic hreserved
    obtain ⟨newer, hnewer⟩ := hreaches.names_suffix
    rw [← hnewer] at hcount ⊢
    exact lookup_append_of_count hcount hb

/-- In every plan of an accepted case file the names of the planner are kept apart from those of
the case, and no run of the plan, whoever moves, rebinds them. -/
theorem plans_are_hygienic {file : CaseFile} {suite : Suite} (h : file.suite = .ok suite) :
    List.Forall₂ (fun c p => p.Hygienic c ∧
      ∀ {σ : Type} (db : Database σ) (env : Environment) (w : σ) (m m' : Running σ),
        (Running.new w p).Reaches db env m → m.Reaches db env m' → Steady m m')
      file.cases suite.plans := by
  refine (Plan.serialPlans_of_suite h).imp ?_
  intro c p hplan
  refine ⟨hplan.hygienic, ?_⟩
  intro σ db env w m m' hm hm'
  exact ((abides_new w p).reaches hplan hm).steady hplan hm'

/-- A case whose own names look like temporaries. -/
def namesakes : TestCase :=
  ⟨"namesakes", 1,
    [.declare ["tmp_x"], .assign "tmp_" (.text "seven"),
      .check .notEqual (.variable "tmp_") (.request ⟨.implicit, .sync, "q", false⟩)]⟩

/-- The plan of that case. -/
def namesakesPlan : Plan :=
  ⟨"test_1_namesakes",
    [.start "case_terminal", .start "tmp_x", .bind "tmp_1" (.text "seven"),
      .bind "tmp_" (.variable "tmp_1"), .bind "tmp_2" (.variable "tmp_"),
      .run (.call "case_terminal" .execute (some "q")), .run (.call "case_terminal" .wait none),
      .bind "tmp_3" (.call "case_terminal" .code none), .check .notEqual "tmp_2" "tmp_3"]⟩

/-- Where a schedule leads from the start of that case; the query is answered with a warning. -/
def namesakesAfter (movers : List Mover) : Running Memory :=
  let m : Running Memory :=
    Running.new { script := { responses := [("q", .warning "slow")] } } namesakesPlan
  (m.runSchedule Memory.database ⟨"", true⟩ movers).getD m

/-- The left operand of the check has just been bound. -/
def leftBound : List Mover := List.replicate 5 .thread

/-- The query is run and its return code is bound; the check comes next. -/
def rightBound : List Mover :=
  List.replicate 4 .thread ++ List.replicate 8 (.worker 0) ++ List.replicate 3 .thread

theorem suite_namesakes : CaseFile.suite ⟨"", [namesakes]⟩ = .ok ⟨"", [namesakesPlan]⟩ :=
  rfl

theorem plans_are_hygienic_namesakes :
    CaseFile.suite ⟨"", [namesakes]⟩ = .ok ⟨"", [namesakesPlan]⟩ ∧
      namesakesPlan.Hygienic namesakes ∧
      (namesakesAfter []).Reaches Memory.database ⟨"", true⟩ (namesakesAfter leftBound) ∧
      (namesakesAfter leftBound).Reaches Memory.database ⟨"", true⟩
        (namesakesAfter (leftBound ++ rightBound)) ∧
      (namesakesAfter leftBound).names.lookup "tmp_2" = some (.value (.text "seven")) ∧
      (namesakesAfter (leftBound ++ rightBound)).thread =
        .body [.check .notEqual "tmp_2" "tmp_3"] ∧
      Steady (namesakesAfter leftBound) (namesakesAfter (leftBound ++ rightBound)) := by
  have hfirst : (namesakesAfter []).Reaches Memory.database ⟨"", true⟩
      (namesakesAfter leftBound) := ⟨leftBound, by cbv⟩
  have hlater : (namesakesAfter leftBound).Reaches Memory.database ⟨"", true⟩
      (namesakesAfter (leftBound ++ rightBound)) := ⟨rightBound, by cbv⟩
  obtain ⟨hhygienic, hsteady⟩ := (List.forall₂_cons.mp (plans_are_hygienic suite_namesakes)).1
  exact ⟨suite_namesakes, hhygienic, hfirst, hlater, by cbv, by cbv,
    hsteady _ _ _ _ _ hfirst hlater⟩

end Case
end CaseSuite
