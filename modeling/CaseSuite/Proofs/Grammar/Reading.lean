import CaseSuite.Proofs.Grammar.Phrases

/-!
# Reading the grammar

The parser reads a phrase exactly where the grammar has one.  Each of its functions is paired with
a phrase in two directions.  What it reads is a phrase followed by what it leaves; and a phrase is
read whole whatever comes after it, as long as the next token cannot carry the phrase on.  Only two
phrases can be carried on: a variable by a colon and a list of names by a name.
-/

namespace CaseSuite
namespace Grammar

open Parse (Parser)
open Token (Kind)

/-- Whatever a parser reads is a phrase, and it leaves the tokens after it. -/
def Reads {α : Type} (parser : Parser α) (phrase : List Token → α → Prop) : Prop :=
  ∀ {ts rest : List Token} {a : α}, Delimited ts → parser ts = .ok (a, rest) →
    ∃ us, ts = us ++ rest ∧ phrase us a

/-- A parser reads every phrase in front of a token of a suitable kind. -/
def Accepts {α : Type} (parser : Parser α) (phrase : List Token → α → Prop)
    (follow : Kind → Prop) : Prop :=
  ∀ {us : List Token} {a : α}, phrase us a → ∀ rest : List Token,
    follow (Parse.kindOf rest) → parser (us ++ rest) = .ok (a, rest)

/-- Any token may follow. -/
def anything (_ : Kind) : Prop := True

theorem Delimited.of_append
    {us ts : List Token} (h : Delimited (us ++ ts)) : Delimited ts := by
  intro t ht
  exact h t (List.mem_append_right us ht)

theorem Delimited.of_cons
    {t : Token} {ts : List Token} (h : Delimited (t :: ts)) : Delimited ts := by
  intro u hu
  exact h u (List.mem_cons_of_mem t hu)

@[simp] theorem ok_bind
    {α β ε : Type} (a : α) (f : α → Except ε β) : (Except.ok a >>= f) = f a :=
  rfl

@[simp] theorem pure_eq_ok {α ε : Type} (a : α) : (pure a : Except ε α) = .ok a :=
  rfl

/-! ## Single tokens -/

theorem accept_inv
    {expected : Expectation} {test : Kind → Bool} {ts rest : List Token} {t : Token}
    (h : Parse.accept expected test ts = .ok (t, rest)) :
    ts = t :: rest ∧ test t.kind := by
  cases ts with
  | nil => cases h
  | cons first tail =>
      simp only [Parse.accept] at h
      split at h
      · cases h
        exact ⟨rfl, ‹_›⟩
      · cases h

theorem expect_inv
    {kind : Kind} {ts rest : List Token} {t : Token}
    (h : Parse.expect kind ts = .ok (t, rest)) :
    ts = t :: rest ∧ t.kind = kind := by
  obtain ⟨hts, hkind⟩ := accept_inv h
  exact ⟨hts, beq_iff_eq.mp hkind⟩

@[simp] theorem expect_cons
    {kind : Kind} {t : Token} (h : t.kind = kind) (ts : List Token) :
    Parse.expect kind (t :: ts) = .ok (t, ts) := by
  simp [Parse.expect, Parse.accept, h]

@[simp] theorem string_cons
    {t : Token} {content : String}
    (hkind : t.kind.isString) (hvalue : t.value? = some content) (ts : List Token) :
    Parse.string (t :: ts) = .ok (content, ts) := by
  simp [Parse.string, Parse.accept, hkind, Token.value, hvalue]

theorem string_reads : Reads Parse.string Text := by
  intro ts rest content hts h
  obtain ⟨⟨t, tail⟩, haccept, hrest⟩ := Parse.bind_ok h
  cases hrest
  obtain ⟨rfl, hkind⟩ := accept_inv haccept
  obtain ⟨content, hvalue⟩ := Option.isSome_iff_exists.mp (hts t (by simp) hkind)
  refine ⟨[t], rfl, ?_⟩
  rw [Token.value, hvalue]
  exact Text.literal hkind hvalue

/-! ## Requests -/

theorem query_reads : Reads Parse.query Query := by
  intro ts rest asked hts h
  unfold Parse.query at h
  split at h
  · obtain ⟨⟨word, ts₁⟩, h₁, h⟩ := Parse.bind_ok h
    obtain ⟨⟨opening, ts₂⟩, h₂, h⟩ := Parse.bind_ok h
    obtain ⟨⟨content, ts₃⟩, h₃, h⟩ := Parse.bind_ok h
    obtain ⟨⟨closing, ts₄⟩, h₄, h⟩ := Parse.bind_ok h
    cases h
    obtain ⟨rfl, hword⟩ := expect_inv h₁
    obtain ⟨rfl, hopening⟩ := expect_inv h₂
    obtain ⟨us, rfl, htext⟩ := string_reads hts.of_cons.of_cons h₃
    obtain ⟨rfl, hclosing⟩ := expect_inv h₄
    exact ⟨word :: opening :: us ++ [closing], by simp,
      Query.rows hword hopening htext hclosing⟩
  · split at h
    · obtain ⟨⟨content, ts₁⟩, h₁, h⟩ := Parse.bind_ok h
      cases h
      obtain ⟨us, rfl, htext⟩ := string_reads hts h₁
      exact ⟨us, rfl, Query.plain htext⟩
    · cases h

theorem query_accepts : Accepts Parse.query Query anything := by
  intro us asked hquery rest _
  cases hquery with
  | plain htext =>
      cases htext with
      | @literal t _ hkind hvalue =>
          have hword : t.kind ≠ .keyword .resultSet := by
            intro h
            simp [h, Kind.isString] at hkind
          simp [Parse.query, Parse.kindOf, hword, hkind, string_cons hkind hvalue]
  | rows hword hopening htext hclosing =>
      cases htext with
      | literal hkind hvalue =>
          simp [Parse.query, Parse.kindOf, hword, expect_cons hword, expect_cons hopening,
            string_cons hkind hvalue, expect_cons hclosing]

theorem timing_reads
    {ts rest : List Token} {timing : Timing} (h : Parse.timing ts = (timing, rest)) :
    ∃ us, ts = us ++ rest ∧ Mark us timing := by
  cases ts with
  | nil =>
      cases h
      exact ⟨[], rfl, Mark.sync⟩
  | cons t ts =>
      simp only [Parse.timing] at h
      split at h
      · cases h
        exact ⟨[t], rfl, Mark.async ‹_›⟩
      · cases h
        exact ⟨[], rfl, Mark.sync⟩

theorem target_reads
    {ts rest : List Token} {target : Target} (h : Parse.target ts = (target, rest)) :
    ∃ us, ts = us ++ rest ∧ Addressee us target := by
  cases ts with
  | nil =>
      cases h
      exact ⟨[], rfl, Addressee.implicit⟩
  | cons t ts =>
      simp only [Parse.target] at h
      split at h
      · cases h
        exact ⟨[t], rfl, Addressee.named ‹_›⟩
      · cases h
        exact ⟨[], rfl, Addressee.implicit⟩

theorem request_reads : Reads Parse.request Scoped := by
  intro ts rest r hts h
  rcases htiming : Parse.timing ts with ⟨timing, ts₁⟩
  rcases htarget : Parse.target ts₁ with ⟨target, ts₂⟩
  simp only [Parse.request, htiming, htarget] at h
  obtain ⟨⟨colon, ts₃⟩, h₁, h⟩ := Parse.bind_ok h
  obtain ⟨⟨⟨query, fetch⟩, ts₄⟩, h₂, h⟩ := Parse.bind_ok h
  cases h
  obtain ⟨ms, rfl, hmark⟩ := timing_reads htiming
  obtain ⟨as, rfl, haddressee⟩ := target_reads htarget
  obtain ⟨rfl, hcolon⟩ := expect_inv h₁
  obtain ⟨qs, rfl, hquery⟩ := query_reads hts.of_append.of_append.of_cons h₂
  exact ⟨ms ++ as ++ colon :: qs, by simp, Scoped.intro hmark haddressee hcolon hquery⟩

/-- The mark is read off whatever stands in front of a name or a colon. -/
theorem timing_append
    {ms rest : List Token} {timing : Timing} (h : Mark ms timing)
    (hrest : Parse.kindOf rest ≠ .keyword .async) :
    Parse.timing (ms ++ rest) = (timing, rest) := by
  cases h with
  | sync =>
      cases rest with
      | nil => rfl
      | cons t ts => exact if_neg hrest
  | async hword => exact if_pos hword

theorem target_append
    {as rest : List Token} {target : Target} (h : Addressee as target)
    (hrest : Parse.kindOf rest ≠ .name) :
    Parse.target (as ++ rest) = (target, rest) := by
  cases h with
  | implicit =>
      cases rest with
      | nil => rfl
      | cons t ts => exact if_neg hrest
  | named hname => exact if_pos hname

/-- After its mark a request goes on with a name or a colon. -/
theorem Addressee.kindOf_append_ne_async
    {as ts : List Token} {target : Target} {colon : Token}
    (h : Addressee as target) (hcolon : colon.kind = .colon) :
    Parse.kindOf (as ++ colon :: ts) ≠ .keyword .async := by
  cases h with
  | implicit => simp [Parse.kindOf, hcolon]
  | named hname => simp [Parse.kindOf, hname]

theorem request_accepts : Accepts Parse.request Scoped anything := by
  intro us r hscoped rest _
  cases hscoped with
  | @intro ms as qs colon timing target query fetch hmark haddressee hcolon hquery =>
      have htiming : Parse.timing (ms ++ (as ++ colon :: (qs ++ rest))) =
          (timing, as ++ colon :: (qs ++ rest)) :=
        timing_append hmark (haddressee.kindOf_append_ne_async hcolon)
      have htarget : Parse.target (as ++ colon :: (qs ++ rest)) =
          (target, colon :: (qs ++ rest)) :=
        target_append haddressee (by simp [Parse.kindOf, hcolon])
      have hasked : Parse.query (qs ++ rest) = .ok ((query, fetch), rest) :=
        query_accepts hquery rest trivial
      simp only [List.append_assoc, List.cons_append]
      simp [Parse.request, htiming, htarget, expect_cons hcolon, hasked]

/-- The kinds a request can begin with, and that a name in front of it is followed by a colon. -/
theorem Scoped.first
    {ts : List Token} {r : Request} (h : Scoped ts r) :
    ∃ t tail, ts = t :: tail ∧
      (t.kind = .keyword .async ∨ t.kind = .colon ∨
        t.kind = .name ∧ Parse.kindOf tail = .colon) := by
  cases h with
  | @intro ms as qs colon _ _ _ _ hmark haddressee hcolon _ =>
      cases hmark with
      | async hword => exact ⟨_, as ++ colon :: qs, rfl, Or.inl hword⟩
      | sync =>
          cases haddressee with
          | implicit => exact ⟨colon, qs, rfl, Or.inr (Or.inl hcolon)⟩
          | named hname => exact ⟨_, colon :: qs, rfl, Or.inr (Or.inr ⟨hname, hcolon⟩)⟩

/-! ## Operands -/

/-- A token that does not carry a variable on to a request. -/
def endsVariable (kind : Kind) : Prop := kind ≠ .colon

theorem expression_reads : Reads Parse.expression Expression := by
  intro ts rest e hts h
  cases ts with
  | nil => cases h
  | cons t ts =>
      simp only [Parse.expression] at h
      split at h
      · rename_i hkind
        cases h
        obtain ⟨content, hvalue⟩ := Option.isSome_iff_exists.mp (hts t (by simp) hkind)
        refine ⟨[t], rfl, ?_⟩
        rw [Token.value, hvalue]
        exact Expression.text (Text.literal hkind hvalue)
      · split at h
        · cases h
          exact ⟨[t], rfl, Expression.number ‹_›⟩
        · split at h
          · rename_i hname
            cases h
            simp only [Bool.and_eq_true, decide_eq_true_eq] at hname
            exact ⟨[t], rfl, Expression.name (Name.word hname.1)⟩
          · split at h
            · obtain ⟨⟨r, ts₁⟩, h₁, h⟩ := Parse.bind_ok h
              cases h
              obtain ⟨us, hus, hscoped⟩ := request_reads hts h₁
              exact ⟨us, hus, Expression.request hscoped⟩
            · cases h

theorem expression_accepts : Accepts Parse.expression Expression endsVariable := by
  intro us e hexpression rest hrest
  cases hexpression with
  | text htext =>
      cases htext with
      | literal hkind hvalue => simp [Parse.expression, hkind, Token.value, hvalue]
  | number hnumber => simp [Parse.expression, hnumber, Kind.isString]
  | name hname =>
      cases hname with
      | word hname =>
          have hnext : Parse.kindOf rest ≠ .colon := hrest
          simp [Parse.expression, hname, Kind.isString, hnext]
  | @request _ r hscoped =>
      have hrequest := request_accepts hscoped rest trivial
      obtain ⟨t, tail, rfl, hfirst⟩ := hscoped.first
      rw [List.cons_append] at hrequest ⊢
      -- The first token decides between the branches; only a name needs the one after it.
      rcases hfirst with hasync | hcolon | ⟨hname, hcolon⟩
      · simp [Parse.expression, Parse.startsRequest, hasync, Kind.isString, hrequest]
      · simp [Parse.expression, Parse.startsRequest, hcolon, Kind.isString, hrequest]
      · have hnext : Parse.kindOf (tail ++ rest) = .colon := by
          cases tail with
          | nil => simp [Parse.kindOf] at hcolon
          | cons second tail => exact hcolon
        simp [Parse.expression, Parse.startsRequest, hname, hnext, Kind.isString, hrequest]

/-! ## Statements -/

/-- A token that no list of names can go on with. -/
def endsNames (kind : Kind) : Prop := kind ≠ .name

theorem names_of_words
    {t : Token} {ts : List Token} (ht : t.kind = .name) (hts : ∀ u ∈ ts, u.kind = .name) :
    Many Name (t :: ts) (t.lexeme :: ts.map Token.lexeme) := by
  induction ts generalizing t with
  | nil => exact Many.one (Name.word ht)
  | cons u ts ih =>
      have hu : u.kind = .name := hts u (by simp)
      exact Many.more (Name.word ht) (ih hu fun v hv => hts v (by simp [hv]))

theorem words_of_names
    {ts : List Token} {names : List String} (h : Many Name ts names) :
    ∃ t tail, ts = t :: tail ∧ t.kind = .name ∧ (∀ u ∈ tail, u.kind = .name) ∧
      names = t.lexeme :: tail.map Token.lexeme := by
  induction h with
  | one hname =>
      cases hname with
      | word hkind => exact ⟨_, [], rfl, hkind, by simp, rfl⟩
  | more hname _ ih =>
      obtain ⟨u, tail, rfl, hu, htail, rfl⟩ := ih
      cases hname with
      | word hkind =>
          refine ⟨_, u :: tail, rfl, hkind, ?_, rfl⟩
          simpa using ⟨hu, htail⟩

theorem declaration_reads
    {ts rest : List Token} {names : List String}
    (h : Parse.declaration ts = .ok (names, rest)) :
    ∃ word us, ts = word :: us ++ rest ∧ word.kind = .keyword .terminal ∧ Many Name us names := by
  obtain ⟨⟨word, ts₁⟩, h₁, h⟩ := Parse.bind_ok h
  obtain ⟨⟨first, ts₂⟩, h₂, h⟩ := Parse.bind_ok h
  cases h
  obtain ⟨rfl, hword⟩ := expect_inv h₁
  obtain ⟨rfl, hfirst⟩ := expect_inv h₂
  refine ⟨word, first :: ts₂.takeWhile (·.kind = .name), ?_, hword, ?_⟩
  · simp
  · apply names_of_words hfirst
    intro u hu
    simpa using List.all_eq_true.mp (List.all_takeWhile (p := fun t => t.kind = .name)) u hu

theorem names_stop
    {rest : List Token} (h : endsNames (Parse.kindOf rest)) :
    rest.takeWhile (·.kind = .name) = [] ∧ rest.dropWhile (·.kind = .name) = rest := by
  cases rest with
  | nil => simp
  | cons t ts =>
      have ht : t.kind ≠ .name := h
      simp [ht]

theorem declaration_accepts
    {word : Token} {us rest : List Token} {names : List String}
    (hword : word.kind = .keyword .terminal) (h : Many Name us names)
    (hrest : endsNames (Parse.kindOf rest)) :
    Parse.declaration (word :: us ++ rest) = .ok (names, rest) := by
  obtain ⟨first, tail, rfl, hfirst, htail, rfl⟩ := words_of_names h
  have hall : ∀ u ∈ tail, decide (u.kind = Kind.name) = true := by simpa using htail
  simp [Parse.declaration, expect_cons hword, expect_cons hfirst, List.takeWhile_append_of_pos hall,
    List.dropWhile_append_of_pos hall, names_stop hrest]

theorem assignment_reads
    {ts rest : List Token} {s : Statement} (hts : Delimited ts)
    (h : Parse.assignment ts = .ok (s, rest)) :
    ∃ us, ts = us ++ rest ∧ Clause us s := by
  obtain ⟨⟨name, ts₁⟩, h₁, h⟩ := Parse.bind_ok h
  obtain ⟨⟨sign, ts₂⟩, h₂, h⟩ := Parse.bind_ok h
  obtain ⟨⟨value, ts₃⟩, h₃, h⟩ := Parse.bind_ok h
  cases h
  obtain ⟨rfl, hname⟩ := expect_inv h₁
  obtain ⟨rfl, hsign⟩ := expect_inv h₂
  obtain ⟨es, rfl, hvalue⟩ := expression_reads hts.of_cons.of_cons h₃
  exact ⟨[name] ++ sign :: es, by simp, Clause.assign (Name.word hname) hsign hvalue⟩

theorem operands_reads
    {word : Token} {ts rest : List Token} {relation : Relation} {left right : Expr}
    (hts : Delimited ts) (hword : word.kind = .keyword (.check relation))
    (h : Parse.operands ts = .ok ((left, right), rest)) :
    ∃ us, word :: ts = us ++ rest ∧ Clause us (.check relation left right) := by
  obtain ⟨⟨opening, ts₁⟩, h₁, h⟩ := Parse.bind_ok h
  obtain ⟨⟨e₁, ts₂⟩, h₂, h⟩ := Parse.bind_ok h
  obtain ⟨⟨comma, ts₃⟩, h₃, h⟩ := Parse.bind_ok h
  obtain ⟨⟨e₂, ts₄⟩, h₄, h⟩ := Parse.bind_ok h
  obtain ⟨⟨closing, ts₅⟩, h₅, h⟩ := Parse.bind_ok h
  cases h
  obtain ⟨rfl, hopening⟩ := expect_inv h₁
  obtain ⟨ls, rfl, hleft⟩ := expression_reads hts.of_cons h₂
  obtain ⟨rfl, hcomma⟩ := expect_inv h₃
  obtain ⟨rs, rfl, hright⟩ := expression_reads hts.of_cons.of_append.of_cons h₄
  obtain ⟨rfl, hclosing⟩ := expect_inv h₅
  exact ⟨word :: opening :: ls ++ comma :: rs ++ [closing], by simp,
    Clause.check hword hopening hleft hcomma hright hclosing⟩

theorem clause_reads : Reads Parse.clause Clause := by
  intro ts rest s hts h
  cases ts with
  | nil => cases h
  | cons t ts =>
      simp only [Parse.clause] at h
      split at h
      · obtain ⟨⟨names, ts₁⟩, h₁, h⟩ := Parse.bind_ok h
        cases h
        obtain ⟨word, us, hus, hword, hnames⟩ := declaration_reads h₁
        exact ⟨word :: us, hus, Clause.declare hword hnames⟩
      · rename_i relation hword
        obtain ⟨⟨⟨left, right⟩, ts₁⟩, h₁, h⟩ := Parse.bind_ok h
        cases h
        exact operands_reads hts.of_cons hword h₁
      · split at h
        · exact assignment_reads hts h
        · split at h
          · obtain ⟨⟨r, ts₁⟩, h₁, h⟩ := Parse.bind_ok h
            cases h
            obtain ⟨us, hus, hscoped⟩ := request_reads hts h₁
            exact ⟨us, hus, Clause.request hscoped⟩
          · cases h

theorem clause_accepts : Accepts Parse.clause Clause (· = .semicolon) := by
  intro us s hclause rest hrest
  cases hclause with
  | request hscoped =>
      have hrequest := request_accepts hscoped rest trivial
      obtain ⟨t, tail, rfl, hfirst⟩ := hscoped.first
      rw [List.cons_append] at hrequest ⊢
      rcases hfirst with hasync | hcolon | ⟨hname, hcolon⟩
      · simp [Parse.clause, Parse.startsRequest, hasync, hrequest]
      · simp [Parse.clause, Parse.startsRequest, hcolon, hrequest]
      · have hnext : Parse.kindOf (tail ++ rest) = .colon := by
          cases tail with
          | nil => simp [Parse.kindOf] at hcolon
          | cons second tail => exact hcolon
        simp [Parse.clause, Parse.startsRequest, hname, hnext, hrequest]
  | declare hword hnames =>
      have hstop : endsNames (Parse.kindOf rest) := by simp [endsNames, hrest]
      have hdeclaration := declaration_accepts hword hnames hstop
      rw [List.cons_append] at hdeclaration ⊢
      simp [Parse.clause, hword, hdeclaration]
  | assign hname hsign hvalue =>
      have hstop : endsVariable (Parse.kindOf rest) := by simp [endsVariable, hrest]
      have hexpression := expression_accepts hvalue rest hstop
      cases hname with
      | word hkind =>
          simp [Parse.clause, Parse.assignment, Parse.kindOf, hkind, hsign, expect_cons hkind,
            expect_cons hsign, hexpression]
  | @check word opening comma closing ls rs relation left right hword hopening hleft hcomma
      hright hclosing =>
      have hfirst : Parse.expression (ls ++ comma :: (rs ++ closing :: rest)) =
          .ok (left, comma :: (rs ++ closing :: rest)) :=
        expression_accepts hleft _ (by simp [endsVariable, Parse.kindOf, hcomma])
      have hsecond : Parse.expression (rs ++ closing :: rest) = .ok (right, closing :: rest) :=
        expression_accepts hright _ (by simp [endsVariable, Parse.kindOf, hclosing])
      simp [Parse.clause, Parse.operands, hword, expect_cons hopening, hfirst, expect_cons hcomma,
        hsecond, expect_cons hclosing]

theorem statement_reads : Reads Parse.statement Sentence := by
  intro ts rest s hts h
  obtain ⟨⟨s', ts₁⟩, h₁, h⟩ := Parse.bind_ok h
  obtain ⟨⟨semicolon, ts₂⟩, h₂, h⟩ := Parse.bind_ok h
  cases h
  obtain ⟨us, rfl, hclause⟩ := clause_reads hts h₁
  obtain ⟨rfl, hstop⟩ := expect_inv h₂
  exact ⟨us ++ [semicolon], by simp, Sentence.intro hclause hstop⟩

theorem statement_accepts : Accepts Parse.statement Sentence anything := by
  intro us s hsentence rest _
  cases hsentence with
  | @intro ts semicolon _ hclause hstop =>
      have hclause : Parse.clause (ts ++ semicolon :: rest) = .ok (s, semicolon :: rest) :=
        clause_accepts hclause _ (by simpa [Parse.kindOf] using hstop)
      simp [Parse.statement, hclause, expect_cons hstop]

/-- No statement begins with the brace that ends a list of statements. -/
theorem Sentence.kindOf_append_ne_rightBrace
    {ts : List Token} {s : Statement} (h : Sentence ts s) (rest : List Token) :
    Parse.kindOf (ts ++ rest) ≠ .rightBrace := by
  cases h with
  | intro hclause _ =>
      cases hclause with
      | request hscoped =>
          obtain ⟨t, tail, rfl, hfirst⟩ := hscoped.first
          rcases hfirst with hasync | hcolon | ⟨hname, -⟩
          · simp [Parse.kindOf, hasync]
          · simp [Parse.kindOf, hcolon]
          · simp [Parse.kindOf, hname]
      | declare hword _ => simp [Parse.kindOf, hword]
      | assign hname _ _ =>
          cases hname with
          | word hkind => simp [Parse.kindOf, hkind]
      | check hword _ _ _ _ _ => simp [Parse.kindOf, hword]

/-! ## Cases and files -/

theorem statements_reads : Reads Parse.statements (Many Sentence) := by
  intro ts rest ss hts h
  fun_induction Parse.statements ts generalizing ss with
  | case1 => cases h
  | case2 ts s tail hs _ =>
      cases h
      obtain ⟨us, rfl, hsentence⟩ := statement_reads hts hs
      exact ⟨us, rfl, Many.one hsentence⟩
  | case3 => cases h
  | case4 ts s tail hs _ more final hmore ih =>
      cases h
      obtain ⟨us, rfl, hsentence⟩ := statement_reads hts hs
      obtain ⟨vs, rfl, hsentences⟩ := ih hts.of_append hmore
      exact ⟨us ++ vs, by simp, Many.more hsentence hsentences⟩

theorem statements_accepts :
    Accepts Parse.statements (Many Sentence) (· = .rightBrace) := by
  intro us ss hsentences rest hrest
  induction hsentences with
  | one hsentence =>
      have hstatement := statement_accepts hsentence rest trivial
      rw [Parse.statements]
      split
      · simp_all
      · simp_all
  | @more ts us s ss hsentence hsentences ih =>
      have hstatement := statement_accepts hsentence (us ++ rest) trivial
      -- The next statement stands in front, so the loop does not stop here.
      have hgoes : Parse.kindOf (us ++ rest) ≠ .rightBrace := by
        cases hsentences with
        | one hnext => exact hnext.kindOf_append_ne_rightBrace rest
        | more hnext _ =>
            rw [List.append_assoc]
            exact hnext.kindOf_append_ne_rightBrace _
      rw [List.append_assoc, Parse.statements]
      split
      · simp_all
      · simp_all

theorem testCase_reads : Reads Parse.testCase Case := by
  intro ts rest c hts h
  obtain ⟨⟨word, ts₁⟩, h₁, h⟩ := Parse.bind_ok h
  obtain ⟨⟨name, ts₂⟩, h₂, h⟩ := Parse.bind_ok h
  obtain ⟨⟨opening, ts₃⟩, h₃, h⟩ := Parse.bind_ok h
  obtain ⟨⟨statements, ts₄⟩, h₄, h⟩ := Parse.bind_ok h
  obtain ⟨⟨closing, ts₅⟩, h₅, h⟩ := Parse.bind_ok h
  cases h
  obtain ⟨rfl, hword⟩ := expect_inv h₁
  obtain ⟨rfl, hname⟩ := expect_inv h₂
  obtain ⟨rfl, hopening⟩ := expect_inv h₃
  obtain ⟨ss, rfl, hbody⟩ := statements_reads hts.of_cons.of_cons.of_cons h₄
  obtain ⟨rfl, hclosing⟩ := expect_inv h₅
  exact ⟨word :: [name] ++ opening :: ss ++ [closing], by simp,
    Case.intro hword (Name.word hname) hopening hbody hclosing⟩

theorem testCase_accepts : Accepts Parse.testCase Case anything := by
  intro us c hcase rest _
  cases hcase with
  | @intro word opening closing ns ss name statements hword hname hopening hbody hclosing =>
      have hstatements : Parse.statements (ss ++ closing :: rest) =
          .ok (statements, closing :: rest) :=
        statements_accepts hbody _ (by simpa [Parse.kindOf] using hclosing)
      cases hname with
      | word hkind =>
          simp [Parse.testCase, expect_cons hword, expect_cons hkind, expect_cons hopening,
            hstatements, expect_cons hclosing]

theorem cases_reads
    {ts : List Token} {cs : List TestCase} (hts : Delimited ts)
    (h : Parse.cases ts = .ok cs) : Many Case ts cs := by
  fun_induction Parse.cases ts generalizing cs with
  | case1 => cases h
  | case2 ts c hc =>
      cases h
      obtain ⟨us, rfl, hcase⟩ := testCase_reads hts hc
      rw [List.append_nil]
      exact Many.one hcase
  | case3 => cases h
  | case4 ts c t rest hc more hmore ih =>
      cases h
      obtain ⟨us, rfl, hcase⟩ := testCase_reads hts hc
      exact Many.more hcase (ih hts.of_append hmore)

theorem Many.ne_nil
    {ts : List Token} {cs : List TestCase} (h : Many Case ts cs) : ts ≠ [] := by
  cases h with
  | one hcase =>
      cases hcase
      simp
  | more hcase _ =>
      cases hcase
      simp

theorem cases_accepts
    {ts : List Token} {cs : List TestCase} (h : Many Case ts cs) :
    Parse.cases ts = .ok cs := by
  induction h with
  | @one ts c hcase =>
      have htestCase := testCase_accepts hcase [] trivial
      rw [List.append_nil] at htestCase
      rw [Parse.cases]
      split <;> simp_all
  | @more ts us c cs hcase hcases ih =>
      have htestCase := testCase_accepts hcase us trivial
      -- A case takes at least its word, so something is left for the loop to go on with.
      have hleft : us ≠ [] := hcases.ne_nil
      rw [Parse.cases]
      split <;> simp_all

theorem config_reads : Reads Parse.config Configuration := by
  intro ts rest content hts h
  obtain ⟨⟨word, ts₁⟩, h₁, h⟩ := Parse.bind_ok h
  obtain ⟨⟨opening, ts₂⟩, h₂, h⟩ := Parse.bind_ok h
  obtain ⟨⟨text, ts₃⟩, h₃, h⟩ := Parse.bind_ok h
  obtain ⟨⟨closing, ts₄⟩, h₄, h⟩ := Parse.bind_ok h
  cases h
  obtain ⟨rfl, hword⟩ := expect_inv h₁
  obtain ⟨rfl, hopening⟩ := expect_inv h₂
  obtain ⟨us, rfl, htext⟩ := string_reads hts.of_cons.of_cons h₃
  obtain ⟨rfl, hclosing⟩ := expect_inv h₄
  exact ⟨word :: opening :: us ++ [closing], by simp,
    Configuration.intro hword hopening htext hclosing⟩

theorem config_accepts : Accepts Parse.config Configuration anything := by
  intro us content hconfiguration rest _
  cases hconfiguration with
  | intro hword hopening htext hclosing =>
      cases htext with
      | literal hkind hvalue =>
          simp [Parse.config, expect_cons hword, expect_cons hopening, string_cons hkind hvalue,
            expect_cons hclosing]

theorem sentence_of_file
    {ts : List Token} {file : CaseFile} (hts : Delimited ts) (h : Parse.file ts = .ok file) :
    File ts file := by
  obtain ⟨⟨config, rest⟩, h₁, h⟩ := Parse.bind_ok h
  obtain ⟨cases, h₂, h⟩ := Parse.bind_ok h
  cases h
  obtain ⟨us, rfl, hconfiguration⟩ := config_reads hts h₁
  exact File.intro hconfiguration (cases_reads hts.of_append h₂)

/-- Sentences need no assumption on their tokens: the grammar asks for the value of a string. -/
theorem file_of_sentence
    {ts : List Token} {file : CaseFile} (h : File ts file) : Parse.file ts = .ok file := by
  cases h with
  | @intro ts us config cases hconfiguration hcases =>
      have hconfig := config_accepts hconfiguration us trivial
      simp [Parse.file, hconfig, cases_accepts hcases]

end Grammar
end CaseSuite
