import CaseSuite.Proofs.Listing.Naming
import CaseSuite.Proofs.Number.Range
import CaseSuite.Proofs.Planning.Names
import Mathlib

/-!
# Which case files are accepted

A case file brings names and numbers of its own.  The planner accepts it exactly if none of the
names is reserved and all of the numbers are in range, and it reports the first that offends, in the
order in which a case is read with the value of an assignment before its target.  What it accepts is
written out unless one of the names has no form in generated code; then the first such name is
reported.
-/

namespace CaseSuite

/-! ## What a case file uses -/

/-- A name or a number that a case file brings. -/
inductive Use where
  | name (name : String)
  | number (literal : String)
  deriving DecidableEq, Repr

/-- The name that a target uses, if it has one. -/
def Target.uses : Target → List Use
  | .implicit => []
  | .named name => [.name name]

/-- What an expression uses. -/
def Expr.uses : Expr → List Use
  | .text _ => []
  | .number literal => [.number literal]
  | .variable name => [.name name]
  | .request r => r.target.uses

/-- What a statement uses, in the order in which it is planned. -/
def Statement.uses : Statement → List Use
  | .request r => r.target.uses
  | .declare names => names.map .name
  | .assign target value => value.uses ++ [.name target]
  | .check _ left right => left.uses ++ right.uses

/-- What a case uses, with the name of the case. -/
def TestCase.uses (c : TestCase) : List (String × Use) :=
  (c.statements.flatMap Statement.uses).map (c.name, ·)

/-- What a case file uses, each with the name of its case. -/
def CaseFile.uses (file : CaseFile) : List (String × Use) :=
  file.cases.flatMap TestCase.uses

namespace Use

/-- A name that is free, or a number in range. -/
def Acceptable : Use → Prop
  | name n => ¬ Plan.Reserved n
  | number literal => Number.InRange literal.toList

instance : DecidablePred Acceptable
  | name n => inferInstanceAs (Decidable (¬ Plan.Reserved n))
  | number literal => decidable_of_iff ((Plan.number? literal).isSome = true)
      Plan.number?_isSome_iff

/-- The error about something that is not acceptable in a case. -/
def error (testCase : String) : Use → PlanError
  | name n => .reservedName n testCase
  | number literal => .numberOutOfRange literal

/-- The error about something used in a case, if it is not acceptable there. -/
def fault? (x : String × Use) : Option PlanError :=
  if x.2.Acceptable then none else some (x.2.error x.1)

theorem fault?_eq_none_iff {x : String × Use} : fault? x = none ↔ x.2.Acceptable := by
  by_cases h : x.2.Acceptable
  · simp [fault?, h]
  · simp [fault?, h]

theorem fault?_eq_some_iff {x : String × Use} {e : PlanError} :
    fault? x = some e ↔ ¬ x.2.Acceptable ∧ e = x.2.error x.1 := by
  by_cases h : x.2.Acceptable
  · simp [fault?, h]
  · simp [fault?, h, eq_comm (a := e)]

/-- The error is about the first of the uses that is not acceptable. -/
def FirstOffence (uses : List (String × Use)) (e : PlanError) : Prop :=
  ∃ before testCase use after, uses = before ++ (testCase, use) :: after ∧
    (∀ x ∈ before, x.2.Acceptable) ∧ ¬ use.Acceptable ∧ e = use.error testCase

theorem findSome?_eq_some_iff {uses : List (String × Use)} {e : PlanError} :
    uses.findSome? fault? = some e ↔ FirstOffence uses e := by
  simp only [List.findSome?_eq_some_iff, fault?_eq_some_iff, fault?_eq_none_iff, FirstOffence]
  constructor
  · rintro ⟨before, ⟨testCase, use⟩, after, huses, ⟨hrefused, he⟩, hbefore⟩
    exact ⟨before, testCase, use, after, huses, hbefore, hrefused, he⟩
  · rintro ⟨before, testCase, use, after, huses, hbefore, hrefused, he⟩
    exact ⟨before, (testCase, use), after, huses, ⟨hrefused, he⟩, hbefore⟩

end Use

/-! ## Planning -/

namespace Plan

/-- From numberings of one kind the planner succeeds, and leaves a numbering of the other kind, if
all uses are acceptable; otherwise it reports the first that is not. -/
structure Checks {α : Type} (P Q : Numbering → Prop) (uses : List (String × Use))
    (x : Planner α) : Prop where
  accepts : ∀ n, P n → uses.findSome? Use.fault? = none →
    ∃ a n', x.runFrom n = (.ok a, n') ∧ Q n'
  refuses : ∀ n e, P n → uses.findSome? Use.fault? = some e → (x.runFrom n).1 = .error e

theorem checks_pure {α : Type} (P : Numbering → Prop) (a : α) :
    Checks P P [] (pure a : Planner α) where
  accepts n hn _ := ⟨a, n, rfl, hn⟩
  refuses _ _ _ h := by cases h

/-- Two planners in sequence check what the one and then the other checks. -/
theorem Checks.bind {α β : Type} {P Q R : Numbering → Prop} {uses more : List (String × Use)}
    {x : Planner α} {f : α → Planner β} (hx : Checks P Q uses x)
    (hf : ∀ a, Checks Q R more (f a)) : Checks P R (uses ++ more) (x >>= f) where
  accepts n hn h := by
    rw [List.findSome?_append, Option.or_eq_none_iff] at h
    obtain ⟨a, n', hrun, hn'⟩ := hx.accepts n hn h.1
    rw [runFrom_bind, hrun]
    exact (hf a).accepts n' hn' h.2
  refuses n e hn h := by
    rw [List.findSome?_append, Option.or_eq_some_iff] at h
    rcases h with hfirst | ⟨hnone, hsecond⟩
    · have herror := hx.refuses n e hn hfirst
      rcases hrun : x.runFrom n with ⟨e' | a, n'⟩
      · rw [hrun] at herror
        cases herror
        rw [runFrom_bind, hrun]
      · rw [hrun] at herror
        cases herror
    · obtain ⟨a, n', hrun, hn'⟩ := hx.accepts n hn hnone
      rw [runFrom_bind, hrun]
      exact (hf a).refuses n' e hn' hsecond

theorem Checks.map {α β : Type} {P Q : Numbering → Prop} {uses : List (String × Use)}
    {x : Planner α} {f : α → β} (hx : Checks P Q uses x) :
    Checks P Q uses (x >>= fun a => pure (f a)) := by
  rw [← List.append_nil uses]
  exact hx.bind fun a => checks_pure Q (f a)

/-- The numbering is that of a case. -/
def In (testCase : String) (n : Numbering) : Prop :=
  n.caseName = testCase

section Case

variable (c : String)

theorem checks_userName (name : String) :
    Checks (In c) (In c) [(c, .name name)] (userName name) where
  accepts n hn h := by
    rw [List.findSome?_singleton, Use.fault?_eq_none_iff] at h
    have hfree : isReserved name = false := not_reserved_iff.mp h
    exact ⟨name, n, by simp [userName, hfree], hn⟩
  refuses n e hn h := by
    rw [List.findSome?_singleton, Use.fault?_eq_some_iff] at h
    obtain ⟨hreserved, rfl⟩ := h
    obtain rfl := hn
    have hreserved : isReserved name = true := isReserved_iff.mpr (not_not.mp hreserved)
    unfold userName
    rw [if_pos hreserved]
    rfl

theorem checks_bindTemporary (value : Operand) :
    Checks (In c) (In c) [] (bindTemporary value) where
  accepts n hn _ := ⟨_, _, rfl, hn⟩
  refuses _ _ _ h := by cases h

theorem checks_number (literal : String) :
    Checks (In c) (In c) [(c, .number literal)] (expression (.number literal)) where
  accepts n hn h := by
    rw [List.findSome?_singleton, Use.fault?_eq_none_iff] at h
    obtain ⟨value, hvalue⟩ := Option.isSome_iff_exists.mp (number?_isSome_iff.mpr h)
    simp only [expression, hvalue]
    exact (checks_bindTemporary c value).accepts n hn rfl
  refuses n e hn h := by
    rw [List.findSome?_singleton, Use.fault?_eq_some_iff] at h
    obtain ⟨hrange, rfl⟩ := h
    have hnone : number? literal = none := by
      rw [← Option.not_isSome_iff_eq_none, number?_isSome_iff]
      exact hrange
    simp only [expression, hnone]
    rfl

theorem checks_request (r : Request) :
    Checks (In c) (In c) (r.target.uses.map (c, ·)) (request r) := by
  refine Checks.map ?_
  cases r.target with
  | implicit => exact checks_pure _ _
  | named name => exact (checks_userName c name).map

theorem checks_expression (e : Expr) :
    Checks (In c) (In c) (e.uses.map (c, ·)) (expression e) := by
  cases e with
  | text content => exact checks_bindTemporary c _
  | number literal => exact checks_number c literal
  | «variable» name =>
      exact (checks_userName c name).bind fun _ => checks_bindTemporary c _
  | request r =>
      have hbound := (checks_request c r).bind fun x =>
        (checks_bindTemporary c x.2.answer).map (f := fun y => (x.1 ++ y.1, y.2))
      rw [List.append_nil] at hbound
      exact hbound

theorem checks_declaration (names : List String) :
    Checks (In c) (In c) ((names.map Use.name).map (c, ·)) (declaration names) := by
  induction names with
  | nil => exact checks_pure _ _
  | cons name names ih => exact (checks_userName c name).bind fun _ => ih.map

theorem checks_statement (s : Statement) :
    Checks (In c) (In c) (s.uses.map (c, ·)) (statement s) := by
  cases s with
  | request r => exact (checks_request c r).map
  | declare names => exact checks_declaration c names
  | assign target value =>
      rw [Statement.uses, List.map_append]
      exact (checks_expression c value).bind fun _ => (checks_userName c target).map
  | check relation left right =>
      rw [Statement.uses, List.map_append]
      exact (checks_expression c left).bind fun _ => (checks_expression c right).map

theorem checks_statements (ss : List Statement) :
    Checks (In c) (In c) ((ss.flatMap Statement.uses).map (c, ·)) (statements ss) := by
  induction ss with
  | nil => exact checks_pure _ _
  | cons s ss ih =>
      rw [List.flatMap_cons, List.map_append]
      exact (checks_statement c s).bind fun _ => ih.map

end Case

theorem Checks.forget {α : Type} {P Q : Numbering → Prop} {uses : List (String × Use)}
    {x : Planner α} (h : Checks P Q uses x) : Checks P (fun _ => True) uses x where
  accepts n hn hnone := by
    obtain ⟨a, n', hrun, -⟩ := h.accepts n hn hnone
    exact ⟨a, n', hrun, trivial⟩
  refuses := h.refuses

theorem checks_testCase (c : TestCase) :
    Checks (fun _ => True) (fun _ => True) c.uses (testCase c) := by
  have hbegin : Checks (fun _ => True) (In c.name) [] (beginCase c.name) :=
    ⟨fun _ _ _ => ⟨_, _, rfl, rfl⟩, fun _ _ _ h => by cases h⟩
  exact (hbegin.bind fun _ => (checks_statements c.name c.statements).map).forget

theorem checks_testCases (cs : List TestCase) :
    Checks (fun _ => True) (fun _ => True) (cs.flatMap TestCase.uses) (testCases cs) := by
  induction cs with
  | nil => exact checks_pure _ _
  | cons c cs ih => exact (checks_testCase c).bind fun _ => ih.map

theorem checks_suite (file : CaseFile) :
    Checks (fun _ => True) (fun _ => True) file.uses (suite file) :=
  (checks_testCases file.cases).map

end Plan

/-- What a case file is refused for is its first fault. -/
theorem CaseFile.suite_eq_error_iff {file : CaseFile} {e : PlanError} :
    file.suite = .error e ↔ file.uses.findSome? Use.fault? = some e := by
  have hchecks := Plan.checks_suite file
  rcases hfault : file.uses.findSome? Use.fault? with _ | e'
  · obtain ⟨suite, n, hrun, -⟩ := hchecks.accepts {} trivial hfault
    simp [CaseFile.suite, hrun]
  · have herror := hchecks.refuses {} e' trivial hfault
    rw [CaseFile.suite, herror]
    simp

theorem CaseFile.suite_isOk_iff {file : CaseFile} :
    (∃ suite, file.suite = .ok suite) ↔ ∀ x ∈ file.uses, x.2.Acceptable := by
  have hok : (∃ suite, file.suite = .ok suite) ↔ ∀ e, file.suite ≠ .error e := by
    cases file.suite <;> simp
  simp only [hok, ne_eq, suite_eq_error_iff, ← Option.eq_none_iff_forall_ne_some,
    List.findSome?_eq_none_iff, Use.fault?_eq_none_iff]

/-! ## Writing -/

/-- The names among what is used. -/
def Use.names (uses : List Use) : List String :=
  uses.filterMap fun
    | .name n => some n
    | .number _ => none

/-- The names that a case file brings, in the order in which they are planned. -/
def CaseFile.ownNames (file : CaseFile) : List String :=
  Use.names (file.uses.map Prod.snd)

theorem Use.names_append (uses more : List Use) :
    Use.names (uses ++ more) = Use.names uses ++ Use.names more :=
  List.filterMap_append

namespace Plan

open Listing

/-- Reserved names can be written. -/
theorem unwritable?_of_reserved {names : List String} (h : ∀ name ∈ names, Reserved name) :
    unwritable? names = none := by
  have hfree : ∀ name ∈ forbidden, ¬ Reserved name := by decide
  simp only [unwritable?, Option.map_eq_none_iff, List.find?_eq_none, decide_eq_true_eq]
  exact fun name hname hforbidden => hfree name hforbidden (h name hname)

theorem unwritable?_terminalName (target : Target) :
    unwritable? [terminalName target] = unwritable? (Use.names target.uses) := by
  cases target with
  | implicit => exact unwritable?_of_reserved (by simp [terminalName])
  | named name => rfl

theorem unwritable?_of_forall_eq {names : List String} {name : String} (hsome : name ∈ names)
    (h : ∀ other ∈ names, other = name) : unwritable? names = unwritable? [name] := by
  have hlength : names.length ≠ 0 := by
    rw [Ne, List.length_eq_zero_iff]
    exact List.ne_nil_of_mem hsome
  rw [List.eq_replicate_of_mem h]
  simp [unwritable?, List.find?_replicate, List.find?_singleton, hlength]

theorem unwritable?_sending (r : Request) :
    unwritable? ((sending r).flatMap Action.written) = unwritable? (Use.names r.target.uses) := by
  have hwritten : ∀ a ∈ sending r, a.written = [terminalName r.target] := by
    intro a ha
    obtain ⟨hbinds, hreads⟩ := names_of_mem_sending ha
    rw [Action.written, hbinds, hreads, List.nil_append]
  have hexecute : Action.run (.call (terminalName r.target) .execute (some r.query)) ∈ sending r :=
    List.mem_cons_self
  rw [← unwritable?_terminalName]
  apply unwritable?_of_forall_eq
  · exact List.mem_flatMap.mpr ⟨_, hexecute, by simp [hwritten _ hexecute]⟩
  · intro name hname
    obtain ⟨a, ha, hin⟩ := List.mem_flatMap.mp hname
    rw [hwritten a ha] at hin
    exact List.mem_singleton.mp hin

theorem unwritable?_bind_temporary (k : Nat) (value : Operand) :
    unwritable? ([Action.bind (temporary k) value].flatMap Action.written) =
      unwritable? value.reads := by
  rw [List.flatMap_singleton, Action.written, Action.binds, unwritable?_append,
    unwritable?_of_reserved (by simp), Option.none_or]
  rfl

/-- The evaluation of an expression writes the names of the expression. -/
theorem Denotes.first_written {e : Expr} {value : Operand} (h : Denotes e value) (k : Nat) :
    unwritable? ((preparation e ++ [Action.bind (temporary k) value]).flatMap Action.written) =
      unwritable? (Use.names e.uses) := by
  rw [List.flatMap_append, unwritable?_append, unwritable?_bind_temporary]
  cases h with
  | text content => rfl
  | number hnumber =>
      rw [reads_of_number? hnumber]
      rfl
  | «variable» free => rfl
  | request addressable =>
      rw [preparation, unwritable?_sending, reads_answer, unwritable?_terminalName, Option.or_self]
      rfl

theorem Planned.first_written {k : Nat} {s : Statement} {as : List Action} (h : Planned k s as) :
    unwritable? (as.flatMap Action.written) = unwritable? (Use.names s.uses) := by
  cases h with
  | request => exact unwritable?_sending _
  | @declare names free =>
      have hwritten : (names.map Action.start).flatMap Action.written = names := by
        simp [List.flatMap_map, Action.written, Action.binds, Action.reads]
      have hnames : Use.names (names.map Use.name) = names := by
        simp [Use.names, List.filterMap_map]
      rw [hwritten, Statement.uses, hnames]
  | @assign target e value denotes free =>
      have htemporary : unwritable? [temporary (k + 1)] = none :=
        unwritable?_of_reserved (by simp)
      have hcopy : unwritable? ([Action.bind target (.variable (temporary (k + 1)))].flatMap
          Action.written) = unwritable? [target] := by
        change unwritable? [target, temporary (k + 1)] = _
        rw [unwritable?_cons, htemporary, Option.or_none]
      rw [List.flatMap_append, unwritable?_append, denotes.first_written, hcopy, Statement.uses,
        Use.names_append, unwritable?_append]
      rfl
  | @check relation left right l r first second =>
      have hcheck : unwritable? ([Action.check relation (temporary (k + 1))
          (temporary (k + 2))].flatMap Action.written) = none :=
        unwritable?_of_reserved (by simp [Action.written, Action.binds, Action.reads])
      rw [List.flatMap_append, List.flatMap_append, unwritable?_append, unwritable?_append,
        first.first_written, second.first_written, hcheck, Option.or_none, Statement.uses,
        Use.names_append, unwritable?_append]

theorem PlannedAll.first_written {ss : List Statement} {as : List Action} (h : PlannedAll ss as) :
    unwritable? (as.flatMap Action.written) =
      unwritable? (Use.names (ss.flatMap Statement.uses)) := by
  induction h with
  | nil => rfl
  | cons first _ ih =>
      rw [List.flatMap_append, unwritable?_append, first.first_written, ih, List.flatMap_cons,
        Use.names_append, unwritable?_append]

theorem PlanOf.first_written {c : TestCase} {p : Plan} (h : PlanOf c p) :
    unwritable? p.written = unwritable? (Use.names (c.uses.map Prod.snd)) := by
  obtain ⟨body, hbody, hactions⟩ := h
  have huses : c.uses.map Prod.snd = c.statements.flatMap Statement.uses := by
    simp [TestCase.uses, Function.comp_def]
  have hstart : unwritable? (Action.start implicitTerminal).written = none :=
    unwritable?_of_reserved (by simp [Action.written, Action.binds, Action.reads])
  rw [Plan.written, hactions, List.flatMap_cons, unwritable?_append, hstart, Option.none_or,
    hbody.first_written, huses]

/-- The first name that cannot be written is the same in the plans and in the case file. -/
theorem unwritable?_of_suite {file : CaseFile} {suite : Suite} (h : file.suite = .ok suite) :
    unwritable? suite.written = unwritable? file.ownNames := by
  have hplans := suite_ok h
  unfold Suite.written CaseFile.ownNames CaseFile.uses
  generalize file.cases = cs at hplans
  generalize suite.plans = plans at hplans
  induction hplans with
  | nil => rfl
  | cons hplan _ ih =>
      rw [List.flatMap_cons, unwritable?_append, hplan.first_written, ih, List.flatMap_cons,
        List.map_append, Use.names_append, unwritable?_append]

end Plan

/-! ## Acceptance -/

namespace Listing

/-- A name that has no form in generated code. -/
def Formless (name : String) : Prop :=
  name ∈ ["_", "self", "Self", "super", "crate"]

instance : DecidablePred Formless :=
  fun name => inferInstanceAs (Decidable (name ∈ ["_", "self", "Self", "super", "crate"]))

/-- The first of the names that has no form in generated code. -/
def FirstFormless (names : List String) (name : String) : Prop :=
  ∃ before after, names = before ++ name :: after ∧ Formless name ∧
    ∀ other ∈ before, ¬ Formless other

theorem mem_forbidden_iff {name : String} : name ∈ forbidden ↔ Formless name :=
  Iff.rfl

theorem unwritable?_eq_some_iff {names : List String} {e : NameError} :
    unwritable? names = some e ↔ FirstFormless names e.name := by
  have hfind : unwritable? names = some e ↔ names.find? (· ∈ forbidden) = some e.name := by
    rw [unwritable?, Option.map_eq_some_iff]
    constructor
    · rintro ⟨name, hname, rfl⟩
      exact hname
    · intro hname
      exact ⟨e.name, hname, rfl⟩
  rw [hfind, List.find?_eq_some_iff_append]
  simp only [decide_eq_true_eq, Bool.not_eq_true', decide_eq_false_iff_not, mem_forbidden_iff,
    FirstFormless]
  constructor
  · rintro ⟨hname, before, after, hnames, hbefore⟩
    exact ⟨before, after, hnames, hname, hbefore⟩
  · rintro ⟨before, after, hnames, hname, hbefore⟩
    exact ⟨hname, before, after, hnames, hbefore⟩

/-- No keyword is reserved or without a form. -/
theorem keywords_are_free :
    ∀ name ∈ keywords, (Use.name name).Acceptable ∧ ¬ Formless name := by
  decide +kernel

theorem exists_unwritable?_iff {names : List String} :
    (∃ e, unwritable? names = some e) ↔ ∃ name ∈ names, Formless name := by
  rw [← Option.isSome_iff_exists, unwritable?, Option.isSome_map, List.find?_isSome]
  simp only [decide_eq_true_eq, mem_forbidden_iff]

end Listing

open Listing

/-- A case file is planned unless it uses a reserved name or a number out of range, and written
unless it uses a name without a form; in either case the first that offends is reported. -/
theorem acceptance_is_decided_by_uses (file : CaseFile) :
    ((∃ suite, file.suite = .ok suite) ↔ ∀ x ∈ file.uses, x.2.Acceptable) ∧
      (∀ e, file.suite = .error e ↔ Use.FirstOffence file.uses e) ∧
      (∀ suite, file.suite = .ok suite →
        ((∃ e, suite.program.listing = .error e) ↔ ∃ name ∈ file.ownNames, Formless name) ∧
        (∀ e, suite.program.listing = .error e ↔ FirstFormless suite.written e.name) ∧
        ∀ name, FirstFormless suite.written name ↔ FirstFormless file.ownNames name) ∧
      ∀ name ∈ keywords, (Use.name name).Acceptable ∧ ¬ Formless name := by
  refine ⟨CaseFile.suite_isOk_iff, ?_, ?_, ?_⟩
  · intro e
    rw [CaseFile.suite_eq_error_iff, Use.findSome?_eq_some_iff]
  · intro suite hsuite
    have hsame := Plan.unwritable?_of_suite hsuite
    refine ⟨?_, ?_, ?_⟩
    · simp only [Suite.listing_eq_error_iff, hsame, exists_unwritable?_iff]
    · intro e
      rw [Suite.listing_eq_error_iff, unwritable?_eq_some_iff]
    · intro name
      rw [← unwritable?_eq_some_iff (e := ⟨name⟩), hsame, unwritable?_eq_some_iff]
  · exact keywords_are_free

/-- The value of an assignment is out of range, and its target is reserved. -/
def overreaching : CaseFile :=
  ⟨"", [⟨"keywords", 1, [.declare ["match", "tmp_", "tmp_1x"]]⟩,
    ⟨"overreaching", 2, [.assign "Ok" (.number "9223372036854775808")]⟩]⟩

/-- Keywords and two names without a form; the value of the assignment is written first. -/
def formless : CaseFile :=
  ⟨"", [⟨"formless", 1, [.declare ["match", "gen"],
    .check .equal (.number "9223372036854775807") (.request ⟨.named "gen", .sync, "q", true⟩),
    .assign "Self" (.variable "self")]⟩]⟩

theorem acceptance_is_decided_by_uses_offences :
    overreaching.suite = .error (.numberOutOfRange "9223372036854775808") ∧
      ∃ suite, formless.suite = .ok suite ∧ suite.program.listing = .error ⟨"self"⟩ := by
  obtain ⟨-, hrefused, -, -⟩ := acceptance_is_decided_by_uses overreaching
  obtain ⟨haccepted, -, hwritten, -⟩ := acceptance_is_decided_by_uses formless
  constructor
  · refine (hrefused _).mpr ⟨_, "overreaching", .number "9223372036854775808", _, rfl, ?_, ?_, rfl⟩
    · decide +kernel
    · decide +kernel
  · obtain ⟨suite, hsuite⟩ := haccepted.mpr (by decide +kernel)
    obtain ⟨-, hfirst, horder⟩ := hwritten suite hsuite
    refine ⟨suite, hsuite, (hfirst ⟨"self"⟩).mpr ((horder "self").mpr ?_)⟩
    exact ⟨["match", "gen", "gen"], ["Self"], rfl, by decide, by decide⟩

end CaseSuite
