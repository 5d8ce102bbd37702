import CaseSuite.CaseFile.Basic
import CaseSuite.Token.Basic

/-!
# Parsing case files

The parser reads a stream of tokens up to its first end mark. It decides by one or two tokens of
lookahead and reports the first token that no continuation could accept.
-/

namespace CaseSuite

/-- What would have been accepted: a token of one kind, or a phrase of the grammar by its name. -/
inductive Expectation where
  | token (kind : Token.Kind)
  | phrase (name : String)
  deriving DecidableEq, Repr

/-- How an expectation is named in a message. -/
def Expectation.describe : Expectation → String
  | token kind => kind.describe
  | phrase name => name

/-- Why a stream of tokens is no case file. -/
inductive ParseError where
  | unexpected (found : Token) (expected : Expectation)
  | ended (position : Position) (expected : Expectation)
  deriving DecidableEq, Repr

namespace ParseError

/-- The place of the refused token or of the end. -/
def position : ParseError → Position
  | unexpected found _ => found.position
  | ended position _ => position

/-- What is wrong there. -/
def reason : ParseError → String
  | unexpected found expected =>
      "Invalid Token:'" ++ found.lexeme ++ "', expected " ++ expected.describe
  | ended _ expected => "unexpected end of input, expected " ++ expected.describe

/-- The text of the error. -/
def message (e : ParseError) : String :=
  let line := Nat.repr e.position.line
  let column := Nat.repr e.position.column
  s!"[Parse Error][Line:{line}, Column:{column}]: " ++ e.reason

end ParseError

namespace Parse

open Token (Kind)

/-- The token at which parsing stopped, or none at the end, and what was expected there. -/
structure Refusal where
  found : Option Token
  expected : Expectation
  deriving DecidableEq, Repr

/-- A parser turns the tokens ahead into a result and the tokens left. -/
abbrev Parser (α : Type) := List Token → Except Refusal (α × List Token)

/-- The kind of the next token; past the last one it is the end mark. -/
def kindOf : List Token → Kind
  | [] => .ending
  | t :: _ => t.kind

/-- Stop at the next token. -/
def refuse {α : Type} (expected : Expectation) : Parser α :=
  fun ts => .error ⟨ts.head?, expected⟩

/-- Take the next token if a test accepts it. -/
def accept (expected : Expectation) (test : Kind → Bool) : Parser Token
  | [] => refuse expected []
  | t :: ts => if test t.kind then .ok (t, ts) else refuse expected (t :: ts)

/-- Take a token of one kind. -/
def expect (kind : Kind) : Parser Token :=
  accept (.token kind) (· == kind)

/-- Take a string of either form. -/
def string : Parser String := fun ts => do
  let (t, ts) ← accept (.phrase "string") Kind.isString ts
  return (t.value, ts)

/-- `{ string }` after the word that opens the configuration. -/
def config : Parser String := fun ts => do
  let (_, ts) ← expect (.keyword .config) ts
  let (_, ts) ← expect .leftBrace ts
  let (text, ts) ← string ts
  let (_, ts) ← expect .rightBrace ts
  return (text, ts)

/-- What a request asks: a query, or a query whose rows are kept. -/
def query : Parser (String × Bool) := fun ts =>
  if kindOf ts = .keyword .resultSet then do
    let (_, ts) ← expect (.keyword .resultSet) ts
    let (_, ts) ← expect .leftParen ts
    let (text, ts) ← string ts
    let (_, ts) ← expect .rightParen ts
    return ((text, true), ts)
  else if (kindOf ts).isString then do
    let (text, ts) ← string ts
    return ((text, false), ts)
  else refuse (.phrase "query string or 'ResultSet'") ts

/-- The mark of a request that is not waited for. -/
def timing : List Token → Timing × List Token
  | [] => (.sync, [])
  | t :: ts => if t.kind = .keyword .async then (.async, ts) else (.sync, t :: ts)

/-- The name of the terminal in front of the colon, if there is one. -/
def target : List Token → Target × List Token
  | [] => (.implicit, [])
  | t :: ts => if t.kind = .name then (.named t.lexeme, ts) else (.implicit, t :: ts)

/-- A request: its mark, its terminal, a colon and what it asks. -/
def request : Parser Request := fun ts =>
  let (timing, ts) := timing ts
  let (target, ts) := target ts
  do
    let (_, ts) ← expect .colon ts
    let ((query, fetch), ts) ← query ts
    return ({ target, timing, query, fetch }, ts)

/-- A request begins with its mark, a name before a colon, or the colon. -/
def startsRequest (kind : Kind) : Bool :=
  kind = .name || kind = .colon || kind = .keyword .async

/-- An operand; a name is a variable unless a colon follows it. -/
def expression : Parser Expr
  | [] => refuse (.phrase "expression") []
  | t :: ts =>
      if t.kind.isString then .ok (.text t.value, ts)
      else if t.kind = .number then .ok (.number t.lexeme, ts)
      else if t.kind = .name && kindOf ts != .colon then .ok (.variable t.lexeme, ts)
      else if startsRequest t.kind then do
        let (r, ts) ← request (t :: ts)
        return (.request r, ts)
      else refuse (.phrase "expression") (t :: ts)

/-- The names of declared terminals, at least one. -/
def declaration : Parser (List String) := fun ts => do
  let (_, ts) ← expect (.keyword .terminal) ts
  let (first, ts) ← expect .name ts
  let more := ts.takeWhile (·.kind = .name)
  return (first.lexeme :: more.map Token.lexeme, ts.dropWhile (·.kind = .name))

/-- `name = expression`. -/
def assignment : Parser Statement := fun ts => do
  let (name, ts) ← expect .name ts
  let (_, ts) ← expect .equals ts
  let (value, ts) ← expression ts
  return (.assign name.lexeme value, ts)

/-- `(left, right)` after the word of a relation. -/
def operands : Parser (Expr × Expr) := fun ts => do
  let (_, ts) ← expect .leftParen ts
  let (left, ts) ← expression ts
  let (_, ts) ← expect .comma ts
  let (right, ts) ← expression ts
  let (_, ts) ← expect .rightParen ts
  return ((left, right), ts)

/-- A statement without its semicolon. -/
def clause : Parser Statement
  | [] => refuse (.phrase "statement") []
  | t :: ts =>
      match t.kind with
      | .keyword .terminal => do
          let (names, ts) ← declaration (t :: ts)
          return (.declare names, ts)
      | .keyword (.check relation) => do
          let ((left, right), ts) ← operands ts
          return (.check relation left right, ts)
      | kind =>
          if kind = .name && kindOf ts = .equals then assignment (t :: ts)
          else if startsRequest kind then do
            let (r, ts) ← request (t :: ts)
            return (.request r, ts)
          else refuse (.phrase "statement") (t :: ts)

/-- A statement and its semicolon. -/
def statement : Parser Statement := fun ts => do
  let (s, ts) ← clause ts
  let (_, ts) ← expect .semicolon ts
  return (s, ts)

/-! ## Every statement takes a token -/

theorem accept_length {expected : Expectation} {test : Kind → Bool} {ts rest : List Token}
    {t : Token} (h : accept expected test ts = .ok (t, rest)) :
    rest.length + 1 = ts.length := by
  cases ts with
  | nil => cases h
  | cons first tail =>
      simp only [accept] at h
      split at h
      · cases h
        rfl
      · cases h

theorem expect_length {kind : Kind} {ts rest : List Token} {t : Token}
    (h : expect kind ts = .ok (t, rest)) : rest.length + 1 = ts.length :=
  accept_length h

/-- A sequence of two parsers succeeds only if both do. -/
theorem bind_ok {α β ε : Type} {x : Except ε α} {f : α → Except ε β} {b : β}
    (h : x >>= f = .ok b) : ∃ a, x = .ok a ∧ f a = .ok b := by
  cases x with
  | error e => cases h
  | ok a => exact ⟨a, rfl, h⟩

theorem string_length {ts rest : List Token} {text : String}
    (h : string ts = .ok (text, rest)) : rest.length + 1 = ts.length := by
  obtain ⟨⟨t, ts'⟩, haccept, hrest⟩ := bind_ok h
  cases hrest
  exact accept_length haccept

theorem query_length {ts rest : List Token} {q : String × Bool}
    (h : query ts = .ok (q, rest)) : rest.length < ts.length := by
  unfold query at h
  split at h
  · obtain ⟨⟨_, ts₁⟩, h₁, h⟩ := bind_ok h
    obtain ⟨⟨_, ts₂⟩, h₂, h⟩ := bind_ok h
    obtain ⟨⟨_, ts₃⟩, h₃, h⟩ := bind_ok h
    obtain ⟨⟨_, ts₄⟩, h₄, h⟩ := bind_ok h
    cases h
    have := expect_length h₁
    have := expect_length h₂
    have := string_length h₃
    have := expect_length h₄
    omega
  · split at h
    · obtain ⟨⟨_, ts₁⟩, h₁, h⟩ := bind_ok h
      cases h
      have := string_length h₁
      omega
    · cases h

theorem timing_length (ts : List Token) : (timing ts).2.length ≤ ts.length := by
  cases ts with
  | nil => exact Nat.le_refl _
  | cons t ts =>
      simp only [timing]
      split
      · exact Nat.le_succ _
      · exact Nat.le_refl _

theorem target_length (ts : List Token) : (target ts).2.length ≤ ts.length := by
  cases ts with
  | nil => exact Nat.le_refl _
  | cons t ts =>
      simp only [target]
      split
      · exact Nat.le_succ _
      · exact Nat.le_refl _

theorem request_length {ts rest : List Token} {r : Request}
    (h : request ts = .ok (r, rest)) : rest.length < ts.length := by
  obtain ⟨⟨_, ts₁⟩, h₁, h⟩ := bind_ok h
  obtain ⟨⟨_, ts₂⟩, h₂, h⟩ := bind_ok h
  cases h
  have : ts₁.length + 1 = (target (timing ts).2).2.length := expect_length h₁
  have := query_length h₂
  have := timing_length ts
  have := target_length (timing ts).2
  omega

theorem expression_length {ts rest : List Token} {e : Expr}
    (h : expression ts = .ok (e, rest)) : rest.length < ts.length := by
  cases ts with
  | nil => cases h
  | cons t ts =>
      simp only [expression] at h
      split at h
      · cases h
        exact Nat.lt_succ_self _
      · split at h
        · cases h
          exact Nat.lt_succ_self _
        · split at h
          · cases h
            exact Nat.lt_succ_self _
          · split at h
            · obtain ⟨⟨_, ts₁⟩, h₁, h⟩ := bind_ok h
              cases h
              exact request_length h₁
            · cases h

theorem declaration_length {ts rest : List Token} {names : List String}
    (h : declaration ts = .ok (names, rest)) : rest.length < ts.length := by
  obtain ⟨⟨_, ts₁⟩, h₁, h⟩ := bind_ok h
  obtain ⟨⟨_, ts₂⟩, h₂, h⟩ := bind_ok h
  cases h
  have := expect_length h₁
  have := expect_length h₂
  have := (List.dropWhile_sublist (l := ts₂) (·.kind = .name)).length_le
  omega

theorem assignment_length {ts rest : List Token} {s : Statement}
    (h : assignment ts = .ok (s, rest)) : rest.length < ts.length := by
  obtain ⟨⟨_, ts₁⟩, h₁, h⟩ := bind_ok h
  obtain ⟨⟨_, ts₂⟩, h₂, h⟩ := bind_ok h
  obtain ⟨⟨_, ts₃⟩, h₃, h⟩ := bind_ok h
  cases h
  have := expect_length h₁
  have := expect_length h₂
  have := expression_length h₃
  omega

theorem operands_length {ts rest : List Token} {es : Expr × Expr}
    (h : operands ts = .ok (es, rest)) : rest.length < ts.length := by
  obtain ⟨⟨_, ts₁⟩, h₁, h⟩ := bind_ok h
  obtain ⟨⟨_, ts₂⟩, h₂, h⟩ := bind_ok h
  obtain ⟨⟨_, ts₃⟩, h₃, h⟩ := bind_ok h
  obtain ⟨⟨_, ts₄⟩, h₄, h⟩ := bind_ok h
  obtain ⟨⟨_, ts₅⟩, h₅, h⟩ := bind_ok h
  cases h
  have := expect_length h₁
  have := expression_length h₂
  have := expect_length h₃
  have := expression_length h₄
  have := expect_length h₅
  omega

theorem clause_length {ts rest : List Token} {s : Statement}
    (h : clause ts = .ok (s, rest)) : rest.length < ts.length := by
  cases ts with
  | nil => cases h
  | cons t ts =>
      simp only [clause] at h
      split at h
      · obtain ⟨⟨_, ts₁⟩, h₁, h⟩ := bind_ok h
        cases h
        exact declaration_length h₁
      · obtain ⟨⟨_, ts₁⟩, h₁, h⟩ := bind_ok h
        cases h
        exact Nat.lt_succ_of_lt (operands_length h₁)
      · split at h
        · exact assignment_length h
        · split at h
          · obtain ⟨⟨_, ts₁⟩, h₁, h⟩ := bind_ok h
            cases h
            exact request_length h₁
          · cases h

theorem statement_length {ts rest : List Token} {s : Statement}
    (h : statement ts = .ok (s, rest)) : rest.length < ts.length := by
  obtain ⟨⟨_, ts₁⟩, h₁, h⟩ := bind_ok h
  obtain ⟨⟨_, ts₂⟩, h₂, h⟩ := bind_ok h
  cases h
  have := clause_length h₁
  have := expect_length h₂
  omega

/-! ## Cases and files -/

/-- At least one statement, and more of them up to a closing brace. -/
def statements (ts : List Token) : Except Refusal (List Statement × List Token) :=
  match _h : statement ts with
  | .error e => .error e
  | .ok (s, rest) =>
      if kindOf rest = .rightBrace then .ok ([s], rest)
      else
        match statements rest with
        | .error e => .error e
        | .ok (more, rest) => .ok (s :: more, rest)
termination_by ts.length
decreasing_by exact statement_length _h

theorem statements_length {ts rest : List Token} {ss : List Statement}
    (h : statements ts = .ok (ss, rest)) : rest.length < ts.length := by
  fun_induction statements ts generalizing ss with
  | case1 => cases h
  | case2 ts s tail hs _ =>
      cases h
      exact statement_length hs
  | case3 => cases h
  | case4 ts s tail hs _ more final _ ih =>
      cases h
      exact Nat.lt_trans (ih ‹_›) (statement_length hs)

/-- A case: its word, its name and its statements in braces. -/
def testCase : Parser TestCase := fun ts => do
  let (word, ts) ← expect (.keyword .testCase) ts
  let (name, ts) ← expect .name ts
  let (_, ts) ← expect .leftBrace ts
  let (statements, ts) ← statements ts
  let (_, ts) ← expect .rightBrace ts
  return (⟨name.lexeme, word.position.line, statements⟩, ts)

theorem testCase_length {ts rest : List Token} {c : TestCase}
    (h : testCase ts = .ok (c, rest)) : rest.length < ts.length := by
  obtain ⟨⟨_, ts₁⟩, h₁, h⟩ := bind_ok h
  obtain ⟨⟨_, ts₂⟩, h₂, h⟩ := bind_ok h
  obtain ⟨⟨_, ts₃⟩, h₃, h⟩ := bind_ok h
  obtain ⟨⟨_, ts₄⟩, h₄, h⟩ := bind_ok h
  obtain ⟨⟨_, ts₅⟩, h₅, h⟩ := bind_ok h
  cases h
  have := expect_length h₁
  have := expect_length h₂
  have := expect_length h₃
  have := statements_length h₄
  have := expect_length h₅
  omega

/-- At least one case, and more of them up to the end. -/
def cases (ts : List Token) : Except Refusal (List TestCase) :=
  match _h : testCase ts with
  | .error e => .error e
  | .ok (c, []) => .ok [c]
  | .ok (c, t :: rest) =>
      match cases (t :: rest) with
      | .error e => .error e
      | .ok more => .ok (c :: more)
termination_by ts.length
decreasing_by exact testCase_length _h

/-- A whole file. -/
def file (ts : List Token) : Except Refusal CaseFile := do
  let (config, ts) ← config ts
  let cases ← cases ts
  return ⟨config, cases⟩

end Parse

namespace CaseFile

/-- The tokens before the first end mark. -/
def body (ts : List Token) : List Token :=
  ts.takeWhile (·.kind != .ending)

/-- Where a stream ends: at its first end mark, or else just after its last token. -/
def endOf (ts : List Token) : Position :=
  match ts.find? (·.kind == .ending) with
  | some t => t.position
  | none =>
      match ts.getLast? with
      | some t => t.after
      | none => .start

/-- Parse a stream of tokens. -/
def parse (ts : List Token) : Except ParseError CaseFile :=
  match Parse.file (body ts) with
  | .ok file => .ok file
  | .error ⟨some found, expected⟩ => .error (.unexpected found expected)
  | .error ⟨none, expected⟩ => .error (.ended (endOf ts) expected)

end CaseFile

end CaseSuite
