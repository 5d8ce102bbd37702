import CaseSuite.Compile
import CaseSuite.Proofs.Execution.Planning
import CaseSuite.Proofs.Grammar.Offence

/-!
# Where the parts of a suite come from

A suite that is planned from a text takes its configuration from the string of the configuration
block, and every name in it is a name of the text, the implicit terminal or a temporary.  So its
names are words, and its doubles are finite because the planner refuses all others.
-/

namespace CaseSuite

/-- A name made of letters, digits and underscores. -/
def IsWord (name : String) : Prop :=
  ∀ c ∈ name.toList, Token.isWordChar c = true

theorem isWord_of_all {name : String} (h : name.toList.all Token.isWordChar = true) :
    IsWord name :=
  List.all_eq_true.mp h

theorem IsWord.append {a b : String} (ha : IsWord a) (hb : IsWord b) : IsWord (a ++ b) := by
  intro c hc
  rw [String.toList_append, List.mem_append] at hc
  exact hc.elim (ha c) (hb c)

theorem isWord_repr (n : Nat) : IsWord (Nat.repr n) := by
  intro c hc
  rw [Nat.toList_repr] at hc
  simp [Token.isWordChar, Plan.isDigit_of_mem_toDigits hc]

/-! ## Names of a text -/

namespace Token

theorem isWordChar_of_complete
    {rest lexeme : List Char} (h : Complete rest .name lexeme) :
    ∀ d ∈ lexeme, isWordChar d = true := by
  cases h with
  | name form longest free =>
      rcases lexeme with _ | ⟨c, cs⟩
      · simp
      · intro d hd
        rcases List.mem_cons.mp hd with rfl | hmore
        · simp [isWordChar, form.1]
        · exact form.2 d hmore
  | mark listed => simp [marks] at listed

/-- The scanner takes only words for names. -/
theorem Scans.isWord
    {s last : Cursor} {ts : List Token} (h : Scans s ts last) {t : Token} (ht : t ∈ ts)
    (hname : t.kind = .name) : IsWord t.lexeme := by
  induction h with
  | rest => simp at ht
  | take hstep _ ih =>
      rcases List.mem_cons.mp ht with rfl | hmore
      · obtain ⟨gap, c, cs, rest, -, -, hcut, -, -⟩ := Cursor.step_token hstep
        rw [hname] at hcut
        exact isWordChar_of_complete (complete_of_cut hcut)
      · exact ih hmore

end Token

/-! ## Names of a case file -/

/-- The name of a target, if it has one. -/
def Target.names : Target → List String
  | .implicit => []
  | .named name => [name]

/-- The names in an expression. -/
def Expr.names : Expr → List String
  | .text _ | .number _ => []
  | .variable name => [name]
  | .request r => r.target.names

/-- The names in a statement. -/
def Statement.names : Statement → List String
  | .request r => r.target.names
  | .declare names => names
  | .assign target value => target :: value.names
  | .check _ left right => left.names ++ right.names

/-- The names in a case, that of the case first. -/
def TestCase.names (c : TestCase) : List String :=
  c.name :: c.statements.flatMap Statement.names

namespace Grammar

/-- Every name is spelled by a token. -/
def Spelling (ts : List Token) (names : List String) : Prop :=
  ∀ name ∈ names, ∃ t ∈ ts, t.kind = .name ∧ t.lexeme = name

theorem Spelling.nil (ts : List Token) : Spelling ts [] := by
  simp [Spelling]

theorem Spelling.mono
    {ts us : List Token} {names : List String} (h : Spelling ts names) (hsub : ts ⊆ us) :
    Spelling us names := by
  intro name hname
  obtain ⟨t, ht, hspells⟩ := h name hname
  exact ⟨t, hsub ht, hspells⟩

theorem Spelling.append
    {ts : List Token} {names more : List String} (h : Spelling ts names)
    (hmore : Spelling ts more) : Spelling ts (names ++ more) := by
  intro name hname
  exact (List.mem_append.mp hname).elim (h name) (hmore name)

theorem Spelling.cons
    {ts : List Token} {name : String} {names : List String} (h : Spelling ts [name])
    (hmore : Spelling ts names) : Spelling ts (name :: names) :=
  h.append hmore

theorem Name.spelling {ts : List Token} {name : String} (h : Name ts name) :
    Spelling ts [name] := by
  obtain ⟨hkind⟩ := h
  simp [Spelling, hkind]

theorem Many.spelling
    {α : Type} {phrase : List Token → α → Prop} (names : α → List String)
    (hphrase : ∀ {ts a}, phrase ts a → Spelling ts (names a))
    {ts : List Token} {as : List α} (h : Many phrase ts as) :
    Spelling ts (as.flatMap names) := by
  induction h with
  | one hfirst => simpa using hphrase hfirst
  | more hfirst _ ih =>
      apply Spelling.append
      · exact (hphrase hfirst).mono (List.subset_append_left _ _)
      · exact ih.mono (List.subset_append_right _ _)

theorem Scoped.spelling {ts : List Token} {r : Request} (h : Scoped ts r) :
    Spelling ts r.target.names := by
  obtain ⟨-, haddressee, -, -⟩ := h
  cases haddressee with
  | implicit => exact Spelling.nil _
  | named hname =>
      intro name hmem
      obtain rfl := List.mem_singleton.mp hmem
      exact ⟨_, by simp, hname, rfl⟩

theorem Expression.spelling {ts : List Token} {e : Expr} (h : Expression ts e) :
    Spelling ts e.names := by
  cases h with
  | text | number => exact Spelling.nil _
  | name hname => exact hname.spelling
  | request hscoped => exact hscoped.spelling

theorem Sentence.spelling {ts : List Token} {s : Statement} (h : Sentence ts s) :
    Spelling ts s.names := by
  obtain ⟨hclause, -⟩ := h
  refine Spelling.mono ?_ (List.subset_append_left _ _)
  cases hclause with
  | request hscoped => exact hscoped.spelling
  | declare _ hnames =>
      have hall := hnames.spelling (fun name => [name]) Name.spelling
      rw [List.flatMap_singleton'] at hall
      exact hall.mono (List.subset_cons_self _ _)
  | assign hname _ hvalue =>
      apply Spelling.cons
      · exact hname.spelling.mono (List.subset_append_left _ _)
      · exact hvalue.spelling.mono fun t ht => by simp [ht]
  | check _ _ hleft _ hright _ =>
      apply Spelling.append
      · exact hleft.spelling.mono fun t ht => by simp [ht]
      · exact hright.spelling.mono fun t ht => by simp [ht]

theorem Case.spelling {ts : List Token} {c : TestCase} (h : Case ts c) :
    Spelling ts c.names := by
  obtain ⟨-, hname, -, hbody, -⟩ := h
  apply Spelling.cons
  · exact hname.spelling.mono fun t ht => by simp [ht]
  · have hall := hbody.spelling Statement.names Sentence.spelling
    exact hall.mono fun t ht => by simp [ht]

end Grammar

/-! ## Names of a plan -/

/-- The names that an operand reads are words, and its number is finite. -/
def Operand.Plain : Operand → Prop
  | .text _ | .int _ => True
  | .float x => x.isFinite = true
  | .variable name => IsWord name
  | .call terminal _ _ => IsWord terminal

/-- The names in an action are words, and its number is finite. -/
def Action.Plain : Action → Prop
  | .start terminal => IsWord terminal
  | .bind target value => IsWord target ∧ value.Plain
  | .run value => value.Plain
  | .check _ left right => IsWord left ∧ IsWord right

/-- The function of a plan and its actions are plain. -/
structure Plan.Plain (p : Plan) : Prop where
  function : IsWord p.function
  actions : ∀ a ∈ p.actions, a.Plain

namespace Plan

theorem isWord_implicitTerminal : IsWord implicitTerminal :=
  isWord_of_all (by decide)

theorem isWord_temporary (n : Nat) : IsWord (temporary n) := by
  have hstem : IsWord temporaryStem := isWord_of_all (by decide)
  exact hstem.append (isWord_repr n)

theorem isWord_functionName {name : String} (n : Nat) (h : IsWord name) :
    IsWord (functionName n name) := by
  have hstem : IsWord "test_" := isWord_of_all (by decide)
  have hmark : IsWord "_" := isWord_of_all (by decide)
  exact ((hstem.append (isWord_repr n)).append hmark).append h

theorem isWord_terminalName {target : Target} (h : ∀ name ∈ target.names, IsWord name) :
    IsWord (terminalName target) := by
  cases target with
  | implicit => exact isWord_implicitTerminal
  | named name => exact h name (by simp [Target.names])

theorem plain_of_mem_sending
    {r : Request} (h : ∀ name ∈ r.target.names, IsWord name) {a : Action} (ha : a ∈ sending r) :
    a.Plain := by
  have hword := isWord_terminalName h
  simp only [sending, List.mem_append, List.mem_singleton] at ha
  rcases ha with (rfl | ha) | ha
  · exact hword
  · split at ha
    · rw [List.mem_singleton] at ha
      subst ha
      exact hword
    · simp at ha
  · split at ha
    · rw [List.mem_singleton] at ha
      subst ha
      exact hword
    · simp at ha

theorem plain_of_mem_preparation
    {e : Expr} (h : ∀ name ∈ e.names, IsWord name) {a : Action} (ha : a ∈ preparation e) :
    a.Plain := by
  cases e with
  | request r => exact plain_of_mem_sending h ha
  | _ => simp [preparation] at ha

theorem number?_plain {literal : String} {value : Operand} (h : number? literal = some value) :
    value.Plain := by
  unfold number? at h
  split at h
  · split at h
    · split at h
      · rename_i hfinite
        obtain rfl := Option.some.inj h
        exact hfinite
      · simp at h
    · simp at h
  · obtain ⟨n, -, rfl⟩ := Option.map_eq_some_iff.mp h
    trivial

theorem Denotes.plain
    {e : Expr} {value : Operand} (hdenotes : Denotes e value)
    (h : ∀ name ∈ e.names, IsWord name) : value.Plain := by
  cases hdenotes with
  | text => trivial
  | number hnumber => exact number?_plain hnumber
  | «variable» => exact h _ (by simp [Expr.names])
  | @request r =>
      have hword := isWord_terminalName h
      unfold answer
      split
      · exact hword
      · exact hword

theorem Planned.plain
    {k : Nat} {s : Statement} {actions : List Action} (hplanned : Planned k s actions)
    (h : ∀ name ∈ s.names, IsWord name) {a : Action} (ha : a ∈ actions) : a.Plain := by
  cases hplanned with
  | request => exact plain_of_mem_sending h ha
  | declare =>
      obtain ⟨name, hname, rfl⟩ := List.mem_map.mp ha
      exact h name hname
  | assign hdenotes =>
      have hvalue : ∀ name ∈ Expr.names _, IsWord name := fun name hname =>
        h name (List.mem_cons_of_mem _ hname)
      simp only [List.mem_append, List.mem_singleton] at ha
      rcases ha with (ha | rfl) | rfl
      · exact plain_of_mem_preparation hvalue ha
      · exact ⟨isWord_temporary _, hdenotes.plain hvalue⟩
      · exact ⟨h _ List.mem_cons_self, isWord_temporary _⟩
  | check hfirst hsecond =>
      have hleft : ∀ name ∈ Expr.names _, IsWord name := fun name hname =>
        h name (List.mem_append_left _ hname)
      have hright : ∀ name ∈ Expr.names _, IsWord name := fun name hname =>
        h name (List.mem_append_right _ hname)
      simp only [List.mem_append, List.mem_singleton] at ha
      rcases ha with ((ha | rfl) | ha | rfl) | rfl
      · exact plain_of_mem_preparation hleft ha
      · exact ⟨isWord_temporary _, hfirst.plain hleft⟩
      · exact plain_of_mem_preparation hright ha
      · exact ⟨isWord_temporary _, hsecond.plain hright⟩
      · exact ⟨isWord_temporary _, isWord_temporary _⟩

theorem PlannedAll.plain
    {ss : List Statement} {actions : List Action} (hplanned : PlannedAll ss actions)
    (h : ∀ name ∈ ss.flatMap Statement.names, IsWord name) {a : Action} (ha : a ∈ actions) :
    a.Plain := by
  induction hplanned with
  | nil => simp at ha
  | cons hfirst _ ih =>
      rw [List.flatMap_cons] at h
      rcases List.mem_append.mp ha with hhead | htail
      · exact hfirst.plain (fun name hname => h name (List.mem_append_left _ hname)) hhead
      · exact ih (fun name hname => h name (List.mem_append_right _ hname)) htail

/-- A plan of a case with words for names is plain. -/
theorem testCase_plain
    {c : TestCase} {p : Plan} {n n' : Numbering} (hrun : (testCase c).runFrom n = (.ok p, n'))
    (h : ∀ name ∈ c.names, IsWord name) : p.Plain := by
  obtain ⟨function, n₁, hbegin, hrun⟩ := runFrom_bind_ok hrun
  obtain ⟨body, n₂, hbody, hrun⟩ := runFrom_bind_ok hrun
  cases hrun
  cases hbegin
  constructor
  · exact isWord_functionName _ (h _ List.mem_cons_self)
  · intro a ha
    rcases List.mem_cons.mp ha with rfl | hmore
    · exact isWord_implicitTerminal
    · exact (statements_ok hbody).plain (fun name hname => h name (List.mem_cons_of_mem _ hname))
        hmore

theorem testCases_plain
    {cs : List TestCase} {plans : List Plan} {n n' : Numbering}
    (hrun : (testCases cs).runFrom n = (.ok plans, n'))
    (h : ∀ c ∈ cs, ∀ name ∈ c.names, IsWord name) {p : Plan} (hp : p ∈ plans) : p.Plain := by
  induction cs generalizing plans n n' with
  | nil =>
      cases hrun
      simp at hp
  | cons c cs ih =>
      obtain ⟨first, n₁, hfirst, hrun⟩ := runFrom_bind_ok hrun
      obtain ⟨more, n₂, hmore, hrun⟩ := runFrom_bind_ok hrun
      cases hrun
      rcases List.mem_cons.mp hp with rfl | hp
      · exact testCase_plain hfirst (h c List.mem_cons_self)
      · exact ih hmore (fun d hd => h d (List.mem_cons_of_mem c hd)) hp

end Plan

/-! ## Suites of texts -/

theorem CaseFile.suite_run
    {file : CaseFile} {suite : Suite} (h : file.suite = .ok suite) :
    ∃ n, (Plan.testCases file.cases).runFrom {} = (.ok suite.plans, n) ∧
      suite.config = file.config := by
  rcases hrun : (Plan.suite file).runFrom {} with ⟨result, n⟩
  rw [CaseFile.suite, hrun] at h
  obtain rfl : result = .ok suite := h
  obtain ⟨plans, n₁, hplans, hrest⟩ := Plan.runFrom_bind_ok hrun
  cases hrest
  exact ⟨_, hplans, rfl⟩

/-- A planned text is scanned and parsed into a file of the grammar that has this suite. -/
theorem Suite.exists_file
    {text : String} {suite : Suite} (h : Suite.ofText text = .ok suite) :
    ∃ tokens stop file, Token.scan text = .ok (tokens ++ [Token.ending stop]) ∧
      (∀ t ∈ tokens, t.kind = .name → IsWord t.lexeme) ∧
      Grammar.File tokens file ∧ file.suite = .ok suite := by
  unfold Suite.ofText at h
  split at h
  · simp at h
  rename_i file hfile
  split at h
  · simp at h
  rename_i hsuite
  obtain rfl := Except.ok.inj h
  unfold CaseFile.ofText at hfile
  split at hfile
  · simp at hfile
  rename_i ts hscan
  split at hfile
  · simp at hfile
  rename_i hparse
  obtain rfl := Except.ok.inj hfile
  obtain ⟨tokens, last, stop, hscans, -, rfl⟩ := Token.exists_scans_of_scan hscan
  have hunended : Grammar.Unended tokens := fun t ht => (hscans.whole ht).kind
  have hdelimited : Grammar.Delimited (tokens ++ [Token.ending stop]) := by
    intro t ht hstring
    rcases List.mem_append.mp ht with hmem | hlast
    · exact (hscans.whole hmem).value hstring
    · rw [List.mem_singleton.mp hlast] at hstring
      simp [Token.ending, Token.Kind.isString] at hstring
  have hsentence := Grammar.file_of_parse hdelimited hparse
  rw [Grammar.body_append_ending hunended] at hsentence
  exact ⟨tokens, stop, _, hscan, fun t ht => hscans.isWord ht, hsentence, hsuite⟩

/-- The plans of a text are plain. -/
theorem Suite.plain
    {text : String} {suite : Suite} (h : Suite.ofText text = .ok suite) {p : Plan}
    (hp : p ∈ suite.plans) : p.Plain := by
  obtain ⟨tokens, stop, file, -, hwords, hfile, hsuite⟩ := Suite.exists_file h
  obtain ⟨n, hrun, -⟩ := CaseFile.suite_run hsuite
  obtain ⟨-, hbody⟩ := hfile
  apply Plan.testCases_plain hrun _ hp
  intro c hc name hname
  have hspelling := hbody.spelling TestCase.names Grammar.Case.spelling
  obtain ⟨t, ht, hkind, rfl⟩ := hspelling name (List.mem_flatMap.mpr ⟨c, hc, hname⟩)
  exact hwords t (List.mem_append_right _ ht) hkind

/-! ## Compiled texts -/

/-- A compiled text is planned, and its code is the listing of that plan. -/
theorem listing_of_compile {text code : String} (h : compile text = .ok code) :
    ∃ suite, Suite.ofText text = .ok suite ∧ suite.program.listing = .ok code := by
  unfold compile at h
  split at h
  · simp at h
  rename_i suite hsuite
  split at h
  · simp at h
  rename_i listing hlisting
  obtain rfl := Except.ok.inj h
  exact ⟨suite, hsuite, hlisting⟩

theorem exists_code (text : String) (h : (compile text).isOk = true) :
    ∃ code, compile text = .ok code := by
  rcases hcode : compile text with e | code
  · rw [hcode] at h
    simp [Except.isOk, Except.toBool] at h
  · exact ⟨code, rfl⟩

end CaseSuite
