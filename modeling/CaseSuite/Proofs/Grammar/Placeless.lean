import CaseSuite.Compile
import CaseSuite.Proofs.Grammar.Offence
import CaseSuite.Proofs.Scanning.Respacing
import Mathlib

/-!
# Places do not matter

The parser decides by kinds and lexemes.  Forgetting the places of its tokens commutes with every
one of its functions: what is read stays the same but for the lines of the cases, and a refusal
names the same token but for its place.  Planning looks at no line.  So the layout of a text shows
nowhere in what is compiled from it.
-/

namespace CaseSuite

/-! ## Forgetting places -/

/-- The token without its place. -/
def Token.unplaced (t : Token) : Token := { t with position := .start }

theorem Token.map_unplaced_eq
    {ts us : List Token} (h : ts.map spelling = us.map spelling) :
    ts.map unplaced = us.map unplaced := by
  have hspelled : ∀ t : Token, t.unplaced = ⟨t.spelling.1, t.spelling.2, .start⟩ := fun _ => rfl
  have hmap : ∀ ts : List Token,
      ts.map unplaced = (ts.map spelling).map fun s => ⟨s.1, s.2, .start⟩ := by
    intro ts
    rw [List.map_map]
    exact List.map_congr_left fun t _ => hspelled t
  rw [hmap, hmap, h]

/-- The case without its line. -/
def TestCase.unplaced (c : TestCase) : TestCase := { c with line := 1 }

/-- The file without the lines of its cases. -/
def CaseFile.unplaced (file : CaseFile) : CaseFile :=
  { file with cases := file.cases.map TestCase.unplaced }

/-- The error without its place. -/
def ScanError.unplaced : ScanError → ScanError
  | unexpected c _ => unexpected c .start
  | unterminated _ => unterminated .start

/-- The error without its place. -/
def ParseError.unplaced : ParseError → ParseError
  | unexpected found expected => unexpected found.unplaced expected
  | ended _ expected => ended .start expected

/-- The error without its place; only errors of the text itself have one. -/
def CompileError.unplaced : CompileError → CompileError
  | scan e => scan e.unplaced
  | parse e => parse e.unplaced
  | plan e => plan e
  | name e => name e

namespace Grammar

open Parse (Parser Refusal)
open Token (Kind)

/-- The refusal without the place of its token. -/
def withoutPlace (r : Refusal) : Refusal := { r with found := r.found.map Token.unplaced }

/-- What a parser gives without places. -/
def forget {α : Type} (g : α → α) :
    Except Refusal (α × List Token) → Except Refusal (α × List Token)
  | .ok (a, ts) => .ok (g a, ts.map Token.unplaced)
  | .error r => .error (withoutPlace r)

/-- A parser for which places do not matter, except that they may show in its result. -/
def Placeless {α : Type} (g : α → α) (p : Parser α) : Prop :=
  ∀ ts, p (ts.map Token.unplaced) = forget g (p ts)

section Combinators

variable {α β : Type} {g : α → α} {h : β → β}

theorem Placeless.of_ok
    {p : Parser α} {ts rest : List Token} {a : α} (hp : Placeless g p)
    (h : p ts = .ok (a, rest)) :
    p (ts.map Token.unplaced) = .ok (g a, rest.map Token.unplaced) := by
  rw [hp ts, h]
  rfl

theorem Placeless.of_error
    {p : Parser α} {ts : List Token} {r : Refusal} (hp : Placeless g p) (h : p ts = .error r) :
    p (ts.map Token.unplaced) = .error (withoutPlace r) := by
  rw [hp ts, h]
  rfl

/-- A sequence, the rest of which may see the place of what its first part has read. -/
theorem Placeless.bind
    {p : Parser α} {k l : α → Parser β} (hp : Placeless g p)
    (hkl : ∀ a ts, k (g a) (ts.map Token.unplaced) = forget h (l a ts)) (ts : List Token) :
    andThen p k (ts.map Token.unplaced) = forget h (andThen p l ts) := by
  rw [andThen, andThen, hp ts]
  rcases p ts with r | ⟨a, rest⟩
  · rfl
  · exact hkl a rest

theorem Placeless.andThen
    {p : Parser α} {k : α → Parser β} (hp : Placeless g p) (hk : ∀ a, Placeless h (k a))
    (hg : ∀ a, k (g a) = k a) : Placeless h (andThen p k) := by
  refine hp.bind fun a ts => ?_
  rw [hg]
  exact hk a ts

/-- A last part that only makes a result. -/
theorem Placeless.map
    {p : Parser α} (hp : Placeless g p) (f : α → β) (hf : ∀ a, f (g a) = h (f a)) :
    Placeless h (Grammar.andThen p fun a => give (f a)) := by
  refine hp.bind fun a ts => ?_
  rw [give, give, hf]
  rfl

theorem refuse_placeless (expected : Expectation) : Placeless g (Parse.refuse expected) := by
  intro ts
  simp [Parse.refuse, forget, withoutPlace]

end Combinators

@[simp] theorem kindOf_unplaced
    (ts : List Token) : Parse.kindOf (ts.map Token.unplaced) = Parse.kindOf ts := by
  cases ts <;> rfl

/-! ## Single tokens -/

theorem accept_placeless
    (expected : Expectation) (test : Kind → Bool) :
    Placeless Token.unplaced (Parse.accept expected test) := by
  rintro (_ | ⟨t, ts⟩)
  · rfl
  · have hkind : t.unplaced.kind = t.kind := rfl
    rw [List.map_cons, Parse.accept, Parse.accept, hkind]
    split
    · rfl
    · exact refuse_placeless expected (t :: ts)

theorem expect_placeless (kind : Kind) : Placeless Token.unplaced (Parse.expect kind) :=
  accept_placeless _ _

theorem string_placeless : Placeless id Parse.string :=
  (accept_placeless (.phrase "string") Kind.isString).map Token.value fun _ => rfl

/-! ## Requests and operands -/

theorem query_placeless : Placeless id Parse.query := by
  intro ts
  rw [Parse.query, Parse.query, kindOf_unplaced]
  split
  · have hrows := (expect_placeless (.keyword .resultSet)).andThen (fun _ =>
      (expect_placeless .leftParen).andThen (fun _ =>
      string_placeless.andThen (fun text =>
      (expect_placeless .rightParen).map (h := id) (fun _ => (text, true)) fun _ => rfl)
      fun _ => rfl) fun _ => rfl) fun _ => rfl
    exact hrows ts
  · split
    · exact string_placeless.map (h := id) (fun text => (text, false)) (fun _ => rfl) ts
    · exact refuse_placeless _ ts

theorem timing_unplaced (ts : List Token) :
    Parse.timing (ts.map Token.unplaced) =
      ((Parse.timing ts).1, (Parse.timing ts).2.map Token.unplaced) := by
  rcases ts with _ | ⟨t, ts⟩
  · rfl
  · have hkind : t.unplaced.kind = t.kind := rfl
    rw [List.map_cons, Parse.timing, Parse.timing, hkind]
    split <;> rfl

theorem target_unplaced (ts : List Token) :
    Parse.target (ts.map Token.unplaced) =
      ((Parse.target ts).1, (Parse.target ts).2.map Token.unplaced) := by
  rcases ts with _ | ⟨t, ts⟩
  · rfl
  · have hkind : t.unplaced.kind = t.kind := rfl
    rw [List.map_cons, Parse.target, Parse.target, hkind]
    split <;> rfl

theorem asked_placeless (timing : Timing) (target : Target) :
    Placeless id (asked timing target) :=
  (expect_placeless .colon).andThen
    (fun _ => query_placeless.map (fun q => Request.mk target timing q.1 q.2) fun _ => rfl)
    fun _ => rfl

theorem request_placeless : Placeless id Parse.request := by
  intro ts
  have hasked := asked_placeless (Parse.timing ts).1 (Parse.target (Parse.timing ts).2).1
    (Parse.target (Parse.timing ts).2).2
  have hrequest : ∀ us, Parse.request us =
      asked (Parse.timing us).1 (Parse.target (Parse.timing us).2).1
        (Parse.target (Parse.timing us).2).2 := fun _ => rfl
  rw [hrequest, hrequest, timing_unplaced]
  simp only [target_unplaced]
  exact hasked

theorem expression_placeless : Placeless id Parse.expression := by
  rintro (_ | ⟨t, ts⟩)
  · rfl
  · have hkind : t.unplaced.kind = t.kind := rfl
    rw [List.map_cons, Parse.expression, Parse.expression, hkind, kindOf_unplaced]
    split
    · rfl
    · split
      · rfl
      · split
        · rfl
        · split
          · exact request_placeless.map (h := id) Expr.request (fun _ => rfl) (t :: ts)
          · exact refuse_placeless _ (t :: ts)

/-! ## Statements -/

theorem moreNames_placeless (first : Token) : Placeless id (moreNames first) := by
  intro ts
  rw [moreNames, moreNames, List.takeWhile_map, List.dropWhile_map, List.map_map]
  rfl

theorem declaration_placeless : Placeless id Parse.declaration :=
  (expect_placeless (.keyword .terminal)).andThen (fun _ =>
    (expect_placeless .name).andThen (fun first => moreNames_placeless first) fun _ => rfl)
    fun _ => rfl

theorem assignment_placeless : Placeless id Parse.assignment :=
  (expect_placeless .name).andThen (fun name =>
    (expect_placeless .equals).andThen (fun _ =>
    expression_placeless.map (Statement.assign name.lexeme) fun _ => rfl) fun _ => rfl) fun _ => rfl

theorem operands_placeless : Placeless id Parse.operands :=
  (expect_placeless .leftParen).andThen (fun _ =>
    expression_placeless.andThen (fun left =>
    (expect_placeless .comma).andThen (fun _ =>
    expression_placeless.andThen (fun right =>
    (expect_placeless .rightParen).map (fun _ => (left, right)) fun _ => rfl)
    fun _ => rfl) fun _ => rfl) fun _ => rfl) fun _ => rfl

theorem clause_placeless : Placeless id Parse.clause := by
  rintro (_ | ⟨t, ts⟩)
  · rfl
  · have hkind : t.unplaced.kind = t.kind := rfl
    rw [List.map_cons, Parse.clause, Parse.clause, hkind, kindOf_unplaced]
    split
    · exact declaration_placeless.map (h := id) Statement.declare (fun _ => rfl) (t :: ts)
    · rename_i relation _
      exact operands_placeless.map (h := id) (fun x => Statement.check relation x.1 x.2)
        (fun _ => rfl) ts
    · split
      · exact assignment_placeless (t :: ts)
      · split
        · exact request_placeless.map (h := id) Statement.request (fun _ => rfl) (t :: ts)
        · exact refuse_placeless _ (t :: ts)

theorem statement_placeless : Placeless id Parse.statement :=
  clause_placeless.andThen (fun s =>
    (expect_placeless .semicolon).map (fun _ => s) fun _ => rfl) fun _ => rfl

theorem statements_placeless : Placeless id Parse.statements := by
  intro ts
  fun_induction Parse.statements ts with
  | case1 ts r hs => exact statements_of_error (statement_placeless.of_error hs)
  | case2 ts s rest hs hbrace =>
      rw [statements_of_ok (statement_placeless.of_ok hs), kindOf_unplaced, if_pos hbrace]
      rfl
  | case3 ts s rest hs hbrace r hmore ih =>
      rw [statements_of_ok (statement_placeless.of_ok hs), kindOf_unplaced, if_neg hbrace, andThen,
        ih, hmore]
      rfl
  | case4 ts s rest hs hbrace more final hmore ih =>
      rw [statements_of_ok (statement_placeless.of_ok hs), kindOf_unplaced, if_neg hbrace, andThen,
        ih, hmore]
      rfl

/-! ## Cases and files -/

/-- A case after its word, which stands on the given line. -/
def caseAfterWord (line : Nat) : Parser TestCase :=
  andThen (Parse.expect .name) fun name => andThen (Parse.expect .leftBrace) fun _ =>
    andThen Parse.statements fun statements => andThen (Parse.expect .rightBrace) fun _ =>
    give ⟨name.lexeme, line, statements⟩

theorem caseAfterWord_unplaced (line : Nat) :
    ∀ ts, caseAfterWord 1 (ts.map Token.unplaced) =
      forget TestCase.unplaced (caseAfterWord line ts) := by
  refine (expect_placeless .name).bind fun name => ?_
  refine (expect_placeless .leftBrace).bind fun _ => ?_
  refine statements_placeless.bind fun statements => ?_
  refine (expect_placeless .rightBrace).bind fun _ _ => ?_
  rfl

/-- Of a case only its line tells where it stands. -/
theorem testCase_placeless : Placeless TestCase.unplaced Parse.testCase := by
  have h : Placeless TestCase.unplaced
      (andThen (Parse.expect (.keyword .testCase)) fun word => caseAfterWord word.position.line) :=
    (expect_placeless (.keyword .testCase)).bind fun word =>
      caseAfterWord_unplaced word.position.line
  exact h

theorem config_placeless : Placeless id Parse.config :=
  (expect_placeless (.keyword .config)).andThen (fun _ =>
    (expect_placeless .leftBrace).andThen (fun _ =>
    string_placeless.andThen (fun text =>
    (expect_placeless .rightBrace).map (fun _ => text) fun _ => rfl)
    fun _ => rfl) fun _ => rfl) fun _ => rfl

theorem cases_of_more
    {ts rest : List Token} {c : TestCase} (h : Parse.testCase ts = .ok (c, rest))
    (hne : rest ≠ []) : Parse.cases ts = (Parse.cases rest).map (c :: ·) := by
  rw [Parse.cases]
  split
  · simp_all
  · simp_all
  · rename_i c' t rest' h'
    obtain ⟨rfl, rfl⟩ : c = c' ∧ rest = t :: rest' := by simpa [h] using h'
    split <;> simp_all [Except.map]

theorem cases_of_last
    {ts : List Token} {c : TestCase} (h : Parse.testCase ts = .ok (c, [])) :
    Parse.cases ts = .ok [c] := by
  rw [Parse.cases]
  split <;> simp_all

/-- What is made of a whole stream, without places. -/
def forgetAll {α : Type} (g : α → α) (result : Except Refusal α) : Except Refusal α :=
  (result.map g).mapError withoutPlace

theorem cases_unplaced (ts : List Token) :
    Parse.cases (ts.map Token.unplaced) =
      forgetAll (List.map TestCase.unplaced) (Parse.cases ts) := by
  fun_induction Parse.cases ts with
  | case1 ts r hc => exact cases_of_error (testCase_placeless.of_error hc)
  | case2 ts c hc => exact cases_of_last (testCase_placeless.of_ok hc)
  | case3 ts c t rest hc r hmore ih =>
      rw [cases_of_more (testCase_placeless.of_ok hc) (by simp), ih, hmore]
      rfl
  | case4 ts c t rest hc more hmore ih =>
      rw [cases_of_more (testCase_placeless.of_ok hc) (by simp), ih, hmore]
      rfl

theorem file_unplaced (ts : List Token) :
    Parse.file (ts.map Token.unplaced) = forgetAll CaseFile.unplaced (Parse.file ts) := by
  rw [Parse.file, Parse.file, config_placeless ts]
  rcases Parse.config ts with r | ⟨config, rest⟩
  · rfl
  · simp only [forget, ok_bind, cases_unplaced rest]
    rcases Parse.cases rest with r | cases
    · rfl
    · rfl

end Grammar

theorem CaseFile.body_unplaced (ts : List Token) :
    body (ts.map Token.unplaced) = (body ts).map Token.unplaced := by
  rw [body, body, List.takeWhile_map]
  rfl

/-- Two streams that differ in places only parse alike. -/
theorem CaseFile.parse_unplaced (ts : List Token) :
    (parse (ts.map Token.unplaced)).mapError ParseError.unplaced =
      ((parse ts).map unplaced).mapError ParseError.unplaced := by
  rw [parse, parse, body_unplaced, Grammar.file_unplaced]
  rcases Parse.file (body ts) with ⟨_ | found, expected⟩ | file
  · rfl
  · rfl
  · rfl

/-! ## Planning -/

theorem Plan.testCases_unplaced (cs : List TestCase) :
    testCases (cs.map TestCase.unplaced) = testCases cs := by
  induction cs with
  | nil => rfl
  | cons c cs ih => rw [List.map_cons, testCases, testCases, ih]; rfl

/-- Planning looks at no line. -/
theorem CaseFile.suite_unplaced (file : CaseFile) : file.unplaced.suite = file.suite := by
  rw [suite, suite, Plan.suite, Plan.suite, unplaced, Plan.testCases_unplaced]

/-! ## Compiling -/

/-- What is compiled from a stream of tokens. -/
def compileTokens (ts : List Token) : Except CompileError String :=
  match CaseFile.parse ts with
  | .error e => .error (.parse e)
  | .ok file =>
      match file.suite with
      | .error e => .error (.plan e)
      | .ok suite => suite.program.listing.mapError .name

theorem compile_of_scan
    {text : String} {ts : List Token} (hscan : Token.scan text = .ok ts) :
    compile text = compileTokens ts := by
  simp only [compile, Suite.ofText, CaseFile.ofText, hscan, compileTokens]
  rcases CaseFile.parse ts with e | file
  · rfl
  · simp only
    rcases file.suite with e | suite
    · rfl
    · simp only
      rcases suite.program.listing with e | listing
      · rfl
      · rfl

theorem compileTokens_unplaced (ts : List Token) :
    (compileTokens (ts.map Token.unplaced)).mapError CompileError.unplaced =
      (compileTokens ts).mapError CompileError.unplaced := by
  have hparse := CaseFile.parse_unplaced ts
  rw [compileTokens, compileTokens]
  rcases hplain : CaseFile.parse ts with e | file <;>
    rcases hbare : CaseFile.parse (ts.map Token.unplaced) with e' | file' <;>
    rw [hplain, hbare] at hparse
  · have he : e'.unplaced = e.unplaced := Except.error.inj hparse
    exact congrArg (fun e => Except.error (CompileError.parse e)) he
  · cases hparse
  · cases hparse
  · obtain rfl : file' = file.unplaced := Except.ok.inj hparse
    simp only [CaseFile.suite_unplaced]

/-- The layout of a text is immaterial.  Its lexemes with any blanks and comments between them are
scanned to the same kinds and lexemes; and texts of the same kinds and lexemes are compiled to the
same code, or are refused for the same reason at tokens that differ in their places only. -/
theorem compile_ignores_layout
    {text : String} {ts : List Token} (hscan : Token.scan text = .ok ts) :
    (∀ relaid, Token.LaysOut relaid (CaseFile.body ts) →
      ∃ us, Token.scan relaid = .ok us ∧ us.map Token.spelling = ts.map Token.spelling) ∧
    ∀ other us, Token.scan other = .ok us → us.map Token.spelling = ts.map Token.spelling →
      (compile other).mapError CompileError.unplaced =
        (compile text).mapError CompileError.unplaced := by
  constructor
  · intro relaid hlays
    obtain ⟨tokens, stop, rfl, hwhole, -⟩ := Token.tokens_of_scan hscan
    rw [Grammar.body_append_ending fun t ht => (hwhole t ht).kind] at hlays
    exact Token.scan_of_laysOut hscan hlays
  · intro other us hother hsame
    rw [compile_of_scan hother, compile_of_scan hscan, ← compileTokens_unplaced us,
      Token.map_unplaced_eq hsame, compileTokens_unplaced]

/-- Lexemes that touch: a name that begins like a keyword, a number with a point, and a string with
a quote, a newline and a number sign in it. -/
def tight : String :=
  "TestCases=1.5\x22\x22\x22a\x22\n# b\x22\x22\x22"

def tightTokens : List Token :=
  [⟨.name, "TestCases", ⟨1, 1, 0⟩⟩, ⟨.equals, "=", ⟨1, 10, 9⟩⟩, ⟨.number, "1.5", ⟨1, 11, 10⟩⟩,
    ⟨.rawString, "\x22\x22\x22a\x22\n# b\x22\x22\x22", ⟨1, 14, 13⟩⟩, .ending ⟨2, 7, 25⟩]

/-- The same lexemes with blanks and comments between them. -/
def loose : String :=
  "TestCases\t=#1.5\n1.5\r\n\x22\x22\x22a\x22\n# b\x22\x22\x22 #"

def looseTokens : List Token :=
  [⟨.name, "TestCases", ⟨1, 1, 0⟩⟩, ⟨.equals, "=", ⟨1, 11, 10⟩⟩, ⟨.number, "1.5", ⟨2, 1, 16⟩⟩,
    ⟨.rawString, "\x22\x22\x22a\x22\n# b\x22\x22\x22", ⟨3, 1, 21⟩⟩, .ending ⟨4, 9, 35⟩]

theorem loose_laysOut : Token.LaysOut loose (CaseFile.body tightTokens) := by
  have hline : '\n' ∉ ['1', '.', '5'] := by decide
  have hcomment : Token.Gap ['#', '1', '.', '5', '\n'] := Token.Gap.comment hline .nil
  have hgaps : ∀ gap ∈ [[], ['\t'], ['#', '1', '.', '5', '\n'], ['\r', '\n']], Token.Gap gap := by
    simp only [List.forall_mem_cons, List.not_mem_nil, false_implies, implies_true, and_true]
    exact ⟨.nil, .blank (by decide) .nil, hcomment, .blank (by decide) (.blank (by decide) .nil)⟩
  have hlast : Token.LastGap [' ', '#'] :=
    Token.LastGap.comment (.blank (c := ' ') (by decide) .nil) (by decide)
  exact ⟨_, _, by decide, hgaps, by decide, hlast, by decide⟩

theorem compile_ignores_layout_loose :
    (∃ us, Token.scan loose = .ok us ∧ us.map Token.spelling = tightTokens.map Token.spelling) ∧
      (compile loose).mapError CompileError.unplaced =
        (compile tight).mapError CompileError.unplaced := by
  have hscan : Token.scan tight = .ok tightTokens := by cbv
  have hloose : Token.scan loose = .ok looseTokens := by cbv
  exact ⟨(compile_ignores_layout hscan).1 loose loose_laysOut,
    (compile_ignores_layout hscan).2 loose looseTokens hloose (by decide)⟩

end CaseSuite
