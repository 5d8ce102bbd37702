import CaseSuite.Proofs.Grammar.Guidance

/-!
# Where the parser stops

Every function of the parser is guided by the language of its phrase.  Each follows a sequence of
parts or branches on the next token.  A word that can begin two phrases, a name, is taken before the
branch, so no function commits itself to a phrase that the next token could still rule out.
-/

namespace CaseSuite
namespace Grammar

open Parse (Parser Refusal)
open Token (Kind)

/-! ## Descriptions of kinds -/

/-- Every kind of token. -/
def kinds : List Kind :=
  ([.rawString, .string, .number, .leftBrace, .rightBrace, .colon, .comma, .semicolon, .equals,
    .leftParen, .rightParen, .name, .ending] : List Kind) ++ Keyword.all.map Kind.keyword

theorem mem_kinds (kind : Kind) : kind ∈ kinds := by
  cases kind with
  | keyword word =>
      cases word with
      | check relation => cases relation <;> decide
      | _ => decide
  | _ => decide

/-- Two kinds are never described with the same words. -/
theorem describe_injective {kind kind' : Kind} (h : kind.describe = kind'.describe) :
    kind = kind' := by
  have hall : ∀ k ∈ kinds, ∀ k' ∈ kinds, k.describe = k'.describe → k = k' := by decide +kernel
  exact hall kind (mem_kinds kind) kind' (mem_kinds kind') h

/-- The phrases that a message can expect are no descriptions of kinds. -/
theorem describe_ne_phrase
    {name : String} (h : name ∈ ["statement", "expression", "query string or 'ResultSet'"])
    (kind : Kind) : kind.describe ≠ name := by
  have hall : ∀ phrase ∈ ["statement", "expression", "query string or 'ResultSet'"],
      ∀ k ∈ kinds, k.describe ≠ phrase := by decide +kernel
  exact hall name h kind (mem_kinds kind)

/-! ## Single tokens -/

/-- The tokens of one kind. -/
def single (kind : Kind) : Language Token :=
  {ts | ∃ t : Token, ts = [t] ∧ t.kind = kind}

/-- A token of a kind that is no string. -/
def sample (kind : Kind) : Token :=
  if kind = .name then .name 1 "x" else .mark 1 kind

theorem kind_sample (kind : Kind) : (sample kind).kind = kind := by
  unfold sample
  split
  · rename_i hname
    rw [hname]
    rfl
  · rfl

instance : Nonempty Token := ⟨.ending .start⟩

theorem expect_guided (kind : Kind) : Guided (Parse.expect kind) (single kind) := by
  refine guided_accept ⟨[sample kind], sample kind, rfl, kind_sample kind⟩ ?_ ?_
  · intro t ht _
    exact ⟨t, rfl, beq_iff_eq.mp ht⟩
  · intro t ht
    exact ⟨[t], ⟨t, rfl, describe_injective ht.1⟩, List.prefix_rfl⟩

theorem text_mem {t : Token} (hkind : t.kind.isString = true) (ht : Delimited [t]) :
    [t] ∈ language Text := by
  obtain ⟨content, hvalue⟩ := Option.isSome_iff_exists.mp (ht t (by simp) hkind)
  exact ⟨content, Text.literal hkind hvalue⟩

theorem string_guided : Guided Parse.string (language Text) := by
  have hL : ∃ s, s ∈ language Text := ⟨[.quoted 1 ""], "", text_quoted 1 ""⟩
  refine (guided_accept hL ?_ ?_).map Token.value
  · intro t hkind ht
    exact text_mem hkind ht
  · intro t ht
    have hkind : t.kind = .string := describe_injective ht.1
    exact ⟨[t], text_mem (by rw [hkind]; rfl) ht.2, List.prefix_rfl⟩

theorem exists_cons_of_kindOf
    {ts us : List Token} {kind : Kind} (h : us.head? = ts.head?) (hkind : Parse.kindOf ts = kind)
    (hend : kind ≠ .ending) : ∃ t us', us = t :: us' ∧ t.kind = kind := by
  rw [← kindOf_congr h] at hkind
  cases us with
  | nil => exact absurd hkind.symm hend
  | cons t us => exact ⟨t, us, rfl, hkind⟩

/-- A parser that expects a whole phrase stops honestly: no token is described so. -/
theorem refuse_guided
    {α : Type} {L : Language Token} {name : String} (hL : ∃ s, s ∈ L)
    (hname : name ∈ ["statement", "expression", "query string or 'ResultSet'"]) :
    Guided (Parse.refuse (.phrase name) : Parser α) L := by
  refine guided_refuse hL ?_
  intro t ht
  exact absurd ht.1 (describe_ne_phrase hname t.kind)

/-! ## Requests -/

theorem query_guided : Guided Parse.query (language Query) := by
  have hL : ∃ s, s ∈ language Query := ⟨_, _, Query.plain (text_quoted 1 "")⟩
  refine guided_of_branches hL ?_
  intro ts
  by_cases hrows : Parse.kindOf ts = .keyword .resultSet
  · refine ⟨_, _, (expect_guided (.keyword .resultSet)).andThen fun _ =>
      (expect_guided .leftParen).andThen fun _ => string_guided.andThen fun text =>
      (expect_guided .rightParen).map fun _ => (text, true), ?_, ?_⟩
    · rintro _ ⟨_, ⟨word, rfl, hword⟩, _, ⟨_, ⟨opening, rfl, hopening⟩, _,
        ⟨us, ⟨content, htext⟩, _, ⟨closing, rfl, hclosing⟩, rfl⟩, rfl⟩, rfl⟩
      exact ⟨_, Query.rows hword hopening htext hclosing⟩
    · intro us hus
      rw [Parse.query, kindOf_congr hus, if_pos hrows]
      rfl
  · by_cases hstring : (Parse.kindOf ts).isString = true
    · refine ⟨_, _, string_guided.map fun text => (text, false), ?_, ?_⟩
      · rintro _ ⟨content, htext⟩
        exact ⟨_, Query.plain htext⟩
      · intro us hus
        rw [Parse.query, kindOf_congr hus, if_neg hrows, if_pos hstring]
        rfl
    · refine ⟨Parse.refuse (.phrase "query string or 'ResultSet'"), _, refuse_guided hL (by simp),
        le_refl _, ?_⟩
      intro us hus
      rw [Parse.query, kindOf_congr hus, if_neg hrows, if_neg hstring]

/-- What is left of a request once its mark and its terminal have been read. -/
def asked (timing : Timing) (target : Target) : Parser Request :=
  andThen (Parse.expect .colon) fun _ => andThen Parse.query fun q =>
    give ⟨target, timing, q.1, q.2⟩

theorem asked_guided (timing : Timing) (target : Target) :
    Guided (asked timing target) (single .colon * language Query) :=
  (expect_guided .colon).andThen fun _ => query_guided.map _

/-- What is left of a request once its mark has been read. -/
def addressed (timing : Timing) : Parser Request := fun ts =>
  asked timing (Parse.target ts).1 (Parse.target ts).2

theorem addressed_guided (timing : Timing) :
    Guided (addressed timing) (language Addressee * (single .colon * language Query)) := by
  have himplicit := asked_guided timing .implicit
  have hle : single .colon * language Query ≤
      language Addressee * (single .colon * language Query) := by
    intro ts hts
    exact ⟨[], ⟨_, Addressee.implicit⟩, ts, hts, rfl⟩
  refine guided_of_branches (himplicit.mono hle).inhabited ?_
  intro ts
  by_cases hname : Parse.kindOf ts = .name
  · refine ⟨_, _, (expect_guided .name).andThen fun t => asked_guided timing (.named t.lexeme),
      ?_, ?_⟩
    · rintro _ ⟨_, ⟨t, rfl, ht⟩, us, hus, rfl⟩
      exact ⟨[t], ⟨_, Addressee.named ht⟩, us, hus, rfl⟩
    · intro us hus
      obtain ⟨t, us, rfl, ht⟩ := exists_cons_of_kindOf hus hname (by decide)
      simp [addressed, Parse.target, ht, andThen, expect_cons ht]
  · refine ⟨_, _, himplicit, hle, ?_⟩
    intro us hus
    have hne : Parse.kindOf us ≠ .name := by rwa [kindOf_congr hus]
    have htarget : Parse.target us = (.implicit, us) := target_append Addressee.implicit hne
    rw [addressed, htarget]

theorem request_guided : Guided Parse.request (language Scoped) := by
  have hsync := addressed_guided .sync
  have hle : language Addressee * (single .colon * language Query) ≤
      language Mark * (language Addressee * (single .colon * language Query)) := by
    intro ts hts
    exact ⟨[], ⟨_, Mark.sync⟩, ts, hts, rfl⟩
  have hscoped : language Mark * (language Addressee * (single .colon * language Query)) ≤
      language Scoped := by
    rintro _ ⟨ms, ⟨timing, hmark⟩, _, ⟨as, ⟨target, haddressee⟩, _, ⟨_, ⟨colon, rfl, hcolon⟩, qs,
      ⟨⟨query, fetch⟩, hquery⟩, rfl⟩, rfl⟩, rfl⟩
    have h := Scoped.intro hmark haddressee hcolon hquery
    rw [List.append_assoc] at h
    exact ⟨_, h⟩
  refine Guided.mono hscoped (guided_of_branches (hsync.mono hle).inhabited ?_)
  intro ts
  by_cases hasync : Parse.kindOf ts = .keyword .async
  · refine ⟨_, _, (expect_guided (.keyword .async)).andThen fun _ => addressed_guided .async,
      ?_, ?_⟩
    · rintro _ ⟨_, ⟨t, rfl, ht⟩, us, hus, rfl⟩
      exact ⟨[t], ⟨_, Mark.async ht⟩, us, hus, rfl⟩
    · intro us hus
      obtain ⟨t, us, rfl, ht⟩ := exists_cons_of_kindOf hus hasync (by decide)
      simp only [andThen, expect_cons ht, ok_bind]
      simp only [Parse.request, Parse.timing, ht, if_true]
      rfl
  · refine ⟨_, _, hsync, hle, ?_⟩
    intro us hus
    have hne : Parse.kindOf us ≠ .keyword .async := by rwa [kindOf_congr hus]
    have htiming : Parse.timing us = (.sync, us) := timing_append Mark.sync hne
    rw [Parse.request, htiming]
    rfl

theorem request_cons_name {t : Token} (ht : t.kind = .name) (ts : List Token) :
    Parse.request (t :: ts) = asked .sync (.named t.lexeme) ts := by
  simp [Parse.request, Parse.timing, Parse.target, ht, asked, andThen, give]

theorem name_scoped_mem
    {t : Token} {ts : List Token} (ht : t.kind = .name)
    (hts : ts ∈ single .colon * language Query) : t :: ts ∈ language Scoped := by
  obtain ⟨_, ⟨colon, rfl, hcolon⟩, qs, ⟨⟨query, fetch⟩, hquery⟩, rfl⟩ := hts
  exact ⟨_, Scoped.intro Mark.sync (Addressee.named ht) hcolon hquery⟩

instance : Nonempty Request := ⟨⟨.implicit, .sync, "", false⟩⟩

instance : Nonempty Expr := ⟨.text ""⟩

instance : Nonempty Statement := ⟨.declare []⟩

/-! ## Operands -/

/-- A name that has been read is a variable unless a colon follows. -/
def afterName (name : String) : Parser Expr := fun ts =>
  if Parse.kindOf ts = .colon then
    andThen (asked .sync (.named name)) (fun r => give (.request r)) ts
  else give (.variable name) ts

theorem afterName_guided (name : String) :
    Guided (afterName name) (1 + single .colon * language Query) := by
  refine guided_of_branches ⟨[], Or.inl rfl⟩ ?_
  intro ts
  by_cases hcolon : Parse.kindOf ts = .colon
  · refine ⟨_, _, (asked_guided .sync (.named name)).map Expr.request, fun us hus => Or.inr hus, ?_⟩
    intro us hus
    rw [afterName, kindOf_congr hus, if_pos hcolon]
  · refine ⟨_, _, guided_give (.variable name), fun us hus => Or.inl hus, ?_⟩
    intro us hus
    rw [afterName, kindOf_congr hus, if_neg hcolon]

theorem expression_cons_name {t : Token} (ht : t.kind = .name) (ts : List Token) :
    Parse.expression (t :: ts) = afterName t.lexeme ts := by
  by_cases hcolon : Parse.kindOf ts = .colon
  · simp [Parse.expression, ht, Kind.isString, hcolon, Parse.startsRequest, afterName,
      request_cons_name ht, andThen, give]
  · simp [Parse.expression, ht, Kind.isString, hcolon, afterName, give]

theorem ne_ending_of_startsRequest
    {kind : Kind} (h : Parse.startsRequest kind = true) : kind ≠ .ending := by
  rintro rfl
  cases h

theorem expression_guided : Guided Parse.expression (language Expression) := by
  have hL : ∃ s, s ∈ language Expression := ⟨_, _, Expression.text (text_quoted 1 "")⟩
  have hrequest : language Scoped ≤ language Expression := by
    rintro us ⟨r, hscoped⟩
    exact ⟨_, Expression.request hscoped⟩
  refine guided_of_branches hL ?_
  intro ts
  by_cases hstring : (Parse.kindOf ts).isString = true
  · refine ⟨_, _, string_guided.map Expr.text, ?_, ?_⟩
    · rintro us ⟨content, htext⟩
      exact ⟨_, Expression.text htext⟩
    · intro us hus
      have hend : Parse.kindOf ts ≠ .ending := by
        intro h
        simp [h, Kind.isString] at hstring
      obtain ⟨t, us, rfl, ht⟩ := exists_cons_of_kindOf hus rfl hend
      rw [← ht] at hstring
      simp [Parse.expression, hstring, andThen, Parse.string, Parse.accept, give]
  by_cases hnumber : Parse.kindOf ts = .number
  · refine ⟨_, _, (expect_guided .number).map fun t => Expr.number t.lexeme, ?_, ?_⟩
    · rintro _ ⟨t, rfl, ht⟩
      exact ⟨_, Expression.number ht⟩
    · intro us hus
      obtain ⟨t, us, rfl, ht⟩ := exists_cons_of_kindOf hus hnumber (by decide)
      simp [Parse.expression, ht, Kind.isString, andThen, expect_cons ht, give]
  by_cases hname : Parse.kindOf ts = .name
  · refine ⟨_, _, (expect_guided .name).andThen fun t => afterName_guided t.lexeme, ?_, ?_⟩
    · rintro _ ⟨_, ⟨t, rfl, ht⟩, us, hnone | hasked, rfl⟩
      · obtain rfl : us = [] := hnone
        exact ⟨_, Expression.name (Name.word ht)⟩
      · exact hrequest (name_scoped_mem ht hasked)
    · intro us hus
      obtain ⟨t, us, rfl, ht⟩ := exists_cons_of_kindOf hus hname (by decide)
      simp [expression_cons_name ht, andThen, expect_cons ht]
  by_cases hstarts : Parse.startsRequest (Parse.kindOf ts) = true
  · refine ⟨_, _, request_guided.map Expr.request, hrequest, ?_⟩
    intro us hus
    obtain ⟨t, us, rfl, ht⟩ :=
      exists_cons_of_kindOf hus rfl (ne_ending_of_startsRequest hstarts)
    rw [← ht] at hstring hnumber hname hstarts
    simp [Parse.expression, hstring, hnumber, hname, hstarts, andThen, give]
  · refine ⟨Parse.refuse (.phrase "expression"), _, refuse_guided hL (by simp), le_refl _, ?_⟩
    intro us hus
    rw [← kindOf_congr hus] at hstring hnumber hname hstarts
    cases us with
    | nil => rfl
    | cons t us =>
        rw [Parse.kindOf] at hstring hnumber hname hstarts
        simp [Parse.expression, hstring, hnumber, hname, hstarts]

/-! ## Statements -/

/-- Names in a row, perhaps none. -/
def words : Language Token :=
  {ts | ∀ t ∈ ts, t.kind = .name}

/-- The names after the first one of a declaration. -/
def moreNames (first : Token) : Parser (List String) := fun ts =>
  .ok (first.lexeme :: (ts.takeWhile (·.kind = .name)).map Token.lexeme,
    ts.dropWhile (·.kind = .name))

theorem endsNames_dropWhile (ts : List Token) :
    endsNames (Parse.kindOf (ts.dropWhile (·.kind = .name))) := by
  induction ts with
  | nil => exact (by decide : Kind.ending ≠ .name)
  | cons t ts ih =>
      by_cases ht : t.kind = .name
      · simpa [ht] using ih
      · rw [List.dropWhile_cons_of_neg (by simpa using ht)]
        exact ht

theorem moreNames_append
    {first : Token} {us rest : List Token} (hus : us ∈ words)
    (hrest : endsNames (Parse.kindOf rest)) :
    moreNames first (us ++ rest) = .ok (first.lexeme :: us.map Token.lexeme, rest) := by
  have hall : ∀ u ∈ us, decide (u.kind = Kind.name) = true := fun u hu => decide_eq_true (hus u hu)
  simp [moreNames, List.takeWhile_append_of_pos hall, List.dropWhile_append_of_pos hall,
    names_stop hrest]

theorem moreNames_guided (first : Token) : Guided (moreNames first) words where
  inhabited := ⟨[], fun t ht => nomatch ht⟩
  takes := by
    intro ts rest names _ hok
    cases hok
    have hwords : ts.takeWhile (·.kind = .name) ∈ words := by
      intro t ht
      simpa using List.all_eq_true.mp (List.all_takeWhile (p := fun t => t.kind = .name)) t ht
    refine ⟨_, hwords, List.takeWhile_append_dropWhile.symm, ?_⟩
    intro rest' hrest
    apply moreNames_append hwords
    rw [kindOf_congr hrest]
    exact endsNames_dropWhile ts
  stops := by
    intro ts r _ herror
    cases herror

theorem declaration_guided :
    Guided Parse.declaration (single (.keyword .terminal) * language (Many Name)) := by
  have h := (expect_guided (.keyword .terminal)).andThen fun _ =>
    (expect_guided .name).andThen fun first => moreNames_guided first
  refine Guided.mono ?_ h
  rintro _ ⟨_, hword, _, ⟨_, ⟨t, rfl, ht⟩, us, hus, rfl⟩, rfl⟩
  exact ⟨_, hword, _, ⟨_, names_of_words ht hus⟩, rfl⟩

theorem operands_guided :
    Guided Parse.operands (single .leftParen * (language Expression * (single .comma *
      (language Expression * single .rightParen)))) :=
  (expect_guided .leftParen).andThen fun _ => expression_guided.andThen fun left =>
    (expect_guided .comma).andThen fun _ => expression_guided.andThen fun right =>
    (expect_guided .rightParen).map fun _ => (left, right)

/-- A name that has been read begins an assignment if an equals sign follows, or else a request. -/
def afterFirstName (name : String) : Parser Statement := fun ts =>
  if Parse.kindOf ts = .equals then
    andThen (Parse.expect .equals)
      (fun _ => andThen Parse.expression fun value => give (.assign name value)) ts
  else andThen (asked .sync (.named name)) (fun r => give (.request r)) ts

theorem afterFirstName_guided (name : String) :
    Guided (afterFirstName name)
      (single .equals * language Expression + single .colon * language Query) := by
  have hrequest := (asked_guided .sync (.named name)).map Statement.request
  have hle : single .colon * language Query ≤
      single .equals * language Expression + single .colon * language Query :=
    fun us hus => Or.inr hus
  refine guided_of_branches (hrequest.mono hle).inhabited ?_
  intro ts
  by_cases hequals : Parse.kindOf ts = .equals
  · refine ⟨_, _, (expect_guided .equals).andThen fun _ =>
      expression_guided.map (Statement.assign name), fun us hus => Or.inl hus, ?_⟩
    intro us hus
    rw [afterFirstName, kindOf_congr hus, if_pos hequals]
  · refine ⟨_, _, hrequest, hle, ?_⟩
    intro us hus
    rw [afterFirstName, kindOf_congr hus, if_neg hequals]

theorem clause_cons_name {t : Token} (ht : t.kind = .name) (ts : List Token) :
    Parse.clause (t :: ts) = afterFirstName t.lexeme ts := by
  by_cases hequals : Parse.kindOf ts = .equals
  · simp [Parse.clause, ht, hequals, afterFirstName, Parse.assignment, expect_cons ht, andThen,
      give]
  · simp [Parse.clause, ht, hequals, afterFirstName, Parse.startsRequest, request_cons_name ht,
      andThen, give]

/-- What neither declares nor checks nor begins with a name is a request, if it is anything. -/
theorem clause_cons_other
    {t : Token} {ts : List Token} (hterminal : t.kind ≠ .keyword .terminal)
    (hcheck : ¬ ∃ relation, t.kind = .keyword (.check relation)) (hname : t.kind ≠ .name) :
    Parse.clause (t :: ts) = if Parse.startsRequest t.kind then
      andThen Parse.request (fun r => give (.request r)) (t :: ts)
    else Parse.refuse (.phrase "statement") (t :: ts) := by
  rw [Parse.clause]
  split
  · contradiction
  · exact absurd ⟨_, ‹_›⟩ hcheck
  · simp [hname, andThen, give]

theorem clause_guided : Guided Parse.clause (language Clause) := by
  have hrequest : language Scoped ≤ language Clause := by
    rintro us ⟨r, hscoped⟩
    exact ⟨_, Clause.request hscoped⟩
  have hL : ∃ s, s ∈ language Clause := (request_guided.mono hrequest).inhabited
  refine guided_of_branches hL ?_
  intro ts
  by_cases hterminal : Parse.kindOf ts = .keyword .terminal
  · refine ⟨_, _, declaration_guided.map Statement.declare, ?_, ?_⟩
    · rintro _ ⟨_, ⟨word, rfl, hword⟩, us, ⟨names, hnames⟩, rfl⟩
      exact ⟨_, Clause.declare hword hnames⟩
    · intro us hus
      obtain ⟨t, us, rfl, ht⟩ := exists_cons_of_kindOf hus hterminal (by decide)
      simp [Parse.clause, ht, andThen, give]
  by_cases hcheck : ∃ relation, Parse.kindOf ts = .keyword (.check relation)
  · obtain ⟨relation, hrelation⟩ := hcheck
    refine ⟨_, _, (expect_guided (.keyword (.check relation))).andThen fun _ =>
      operands_guided.map fun es => Statement.check relation es.1 es.2, ?_, ?_⟩
    · rintro _ ⟨_, ⟨word, rfl, hword⟩, _, ⟨_, ⟨opening, rfl, hopening⟩, _, ⟨ls, ⟨left, hleft⟩, _,
        ⟨_, ⟨comma, rfl, hcomma⟩, _, ⟨rs, ⟨right, hright⟩, _, ⟨closing, rfl, hclosing⟩, rfl⟩, rfl⟩,
        rfl⟩, rfl⟩, rfl⟩
      refine ⟨.check relation left right, ?_⟩
      have h := Clause.check hword hopening hleft hcomma hright hclosing
      simpa using h
    · intro us hus
      obtain ⟨t, us, rfl, ht⟩ := exists_cons_of_kindOf hus hrelation (by simp)
      simp [Parse.clause, ht, andThen, expect_cons ht, give]
  by_cases hname : Parse.kindOf ts = .name
  · refine ⟨_, _, (expect_guided .name).andThen fun t => afterFirstName_guided t.lexeme, ?_, ?_⟩
    · rintro _ ⟨_, ⟨t, rfl, ht⟩, us, hassign | hasked, rfl⟩
      · obtain ⟨_, ⟨sign, rfl, hsign⟩, es, ⟨value, hvalue⟩, rfl⟩ := hassign
        exact ⟨_, Clause.assign (Name.word ht) hsign hvalue⟩
      · exact hrequest (name_scoped_mem ht hasked)
    · intro us hus
      obtain ⟨t, us, rfl, ht⟩ := exists_cons_of_kindOf hus hname (by decide)
      simp [clause_cons_name ht, andThen, expect_cons ht]
  by_cases hstarts : Parse.startsRequest (Parse.kindOf ts) = true
  · refine ⟨_, _, request_guided.map Statement.request, hrequest, ?_⟩
    intro us hus
    obtain ⟨t, us, rfl, ht⟩ :=
      exists_cons_of_kindOf hus rfl (ne_ending_of_startsRequest hstarts)
    rw [← ht] at hterminal hcheck hname hstarts
    rw [clause_cons_other hterminal hcheck hname, if_pos hstarts]
  · refine ⟨Parse.refuse (.phrase "statement"), _, refuse_guided hL (by simp), le_refl _, ?_⟩
    intro us hus
    cases us with
    | nil => rfl
    | cons t us =>
        have ht : t.kind = Parse.kindOf ts := kindOf_congr hus
        rw [← ht] at hterminal hcheck hname hstarts
        rw [clause_cons_other hterminal hcheck hname, if_neg hstarts]

theorem statement_guided : Guided Parse.statement (language Sentence) := by
  have h := clause_guided.andThen fun s => (expect_guided .semicolon).map fun _ => s
  refine Guided.mono ?_ h
  rintro _ ⟨us, ⟨s, hclause⟩, _, ⟨t, rfl, ht⟩, rfl⟩
  exact ⟨_, Sentence.intro hclause ht⟩

/-! ## Cases and files -/

theorem statements_of_ok
    {ts rest : List Token} {s : Statement} (h : Parse.statement ts = .ok (s, rest)) :
    Parse.statements ts = if Parse.kindOf rest = .rightBrace then .ok ([s], rest)
      else andThen Parse.statements (fun more => give (s :: more)) rest := by
  rw [Parse.statements]
  split
  · simp_all
  · rename_i s' rest' h'
    obtain ⟨rfl, rfl⟩ : s = s' ∧ rest = rest' := by simpa [h] using h'
    split
    · rfl
    · split
      · simp_all [andThen, bind, Except.bind]
      · simp_all [andThen, give]

theorem statements_of_error
    {ts : List Token} {r : Refusal} (h : Parse.statement ts = .error r) :
    Parse.statements ts = .error r := by
  rw [Parse.statements]
  split <;> simp_all

theorem language_many_le {α : Type} (phrase : List Token → α → Prop) :
    language phrase * language (Many phrase) ≤ language (Many phrase) := by
  rintro _ ⟨us, ⟨a, ha⟩, vs, ⟨as, has⟩, rfl⟩
  exact ⟨a :: as, Many.more ha has⟩

theorem language_le_many {α : Type} (phrase : List Token → α → Prop) :
    language phrase ≤ language (Many phrase) := by
  rintro us ⟨a, ha⟩
  exact ⟨[a], Many.one ha⟩

theorem statements_guided : Guided Parse.statements (language (Many Sentence)) where
  inhabited := (statement_guided.mono (language_le_many Sentence)).inhabited
  takes := by
    intro ts rest ss hts hok
    fun_induction Parse.statements ts generalizing ss with
    | case1 => cases hok
    | case2 ts s tail hs hbrace =>
        cases hok
        obtain ⟨us, hus, rfl, hlocal⟩ := statement_guided.takes hts hs
        refine ⟨us, language_le_many Sentence hus, rfl, ?_⟩
        intro rest' hrest
        rw [statements_of_ok (hlocal rest' hrest), kindOf_congr hrest, if_pos hbrace]
    | case3 => cases hok
    | case4 ts s tail hs hbrace more final hmore ih =>
        cases hok
        have htakes := statement_guided.takes hts hs
        have hrest := ih (htakes.delimited hts) hmore
        refine (htakes.andThen hrest ?_).mono (language_many_le Sentence)
        intro us rest' final' hus hhead hrest'
        rw [statements_of_ok hus, kindOf_congr hhead, if_neg hbrace, andThen, hrest']
        rfl
  stops := by
    intro ts r hts herror
    fun_induction Parse.statements ts with
    | case1 ts r' hs =>
        cases herror
        refine ((statement_guided.stops hts hs).mono (language_le_many Sentence)).of_error ?_
        intro us hus
        exact statements_of_error hus
    | case2 => cases herror
    | case3 ts s tail hs hbrace r' hmore ih =>
        cases herror
        have htakes := statement_guided.takes hts hs
        have hrest := ih (htakes.delimited hts) hmore
        refine (htakes.stops hrest ?_).mono (language_many_le Sentence)
        intro us rest' hus hhead hrest'
        rw [statements_of_ok hus, kindOf_congr hhead, if_neg hbrace, andThen, hrest']
        rfl
    | case4 => cases herror

theorem testCase_guided : Guided Parse.testCase (language Case) := by
  have h := (expect_guided (.keyword .testCase)).andThen fun word =>
    (expect_guided .name).andThen fun name => (expect_guided .leftBrace).andThen fun _ =>
    statements_guided.andThen fun statements => (expect_guided .rightBrace).map fun _ =>
      TestCase.mk name.lexeme word.position.line statements
  refine Guided.mono ?_ h
  rintro _ ⟨_, ⟨word, rfl, hword⟩, _, ⟨_, ⟨name, rfl, hname⟩, _, ⟨_, ⟨opening, rfl, hopening⟩, _,
    ⟨ss, ⟨statements, hbody⟩, _, ⟨closing, rfl, hclosing⟩, rfl⟩, rfl⟩, rfl⟩, rfl⟩
  have h := Case.intro hword (Name.word hname) hopening hbody hclosing
  exact ⟨_, by simpa using h⟩

theorem config_guided : Guided Parse.config (language Configuration) := by
  have h := (expect_guided (.keyword .config)).andThen fun _ =>
    (expect_guided .leftBrace).andThen fun _ => string_guided.andThen fun text =>
    (expect_guided .rightBrace).map fun _ => text
  refine Guided.mono ?_ h
  rintro _ ⟨_, ⟨word, rfl, hword⟩, _, ⟨_, ⟨opening, rfl, hopening⟩, _, ⟨us, ⟨content, htext⟩, _,
    ⟨closing, rfl, hclosing⟩, rfl⟩, rfl⟩, rfl⟩
  exact ⟨_, Configuration.intro hword hopening htext hclosing⟩

theorem cases_of_error
    {ts : List Token} {r : Refusal} (h : Parse.testCase ts = .error r) :
    Parse.cases ts = .error r := by
  rw [Parse.cases]
  split <;> simp_all

theorem cases_of_rest
    {ts rest : List Token} {c : TestCase} {r : Refusal} (h : Parse.testCase ts = .ok (c, rest))
    (hrest : Parse.cases rest = .error r) (hne : rest ≠ []) : Parse.cases ts = .error r := by
  rw [Parse.cases]
  split <;> simp_all

theorem cases_stops
    {ts : List Token} {r : Refusal} (hts : Delimited ts) (herror : Parse.cases ts = .error r) :
    Stops Parse.cases (language (Many Case)) ts r := by
  fun_induction Parse.cases ts with
  | case1 ts r' hc =>
      cases herror
      refine ((testCase_guided.stops hts hc).mono (language_le_many Case)).of_error ?_
      intro us hus
      exact cases_of_error hus
  | case2 => cases herror
  | case3 ts c t rest hc r' hmore ih =>
      cases herror
      have htakes := testCase_guided.takes hts hc
      have hstops := ih (htakes.delimited hts) hmore
      refine (htakes.stops hstops ?_).mono (language_many_le Case)
      intro us rest' hus hhead hrest'
      refine cases_of_rest hus hrest' ?_
      rintro rfl
      cases hhead
  | case4 => cases herror

theorem file_stops
    {ts : List Token} {r : Refusal} (hts : Delimited ts) (herror : Parse.file ts = .error r) :
    Stops Parse.file (language File) ts r := by
  have hfile : language Configuration * language (Many Case) ≤ language File := by
    rintro _ ⟨us, ⟨config, hconfig⟩, vs, ⟨cases, hcases⟩, rfl⟩
    exact ⟨_, File.intro hconfig hcases⟩
  refine Stops.mono ?_ hfile
  rcases hconfig : Parse.config ts with r' | ⟨config, rest⟩
  · obtain rfl : r' = r := by simpa [Parse.file, hconfig, bind, Except.bind] using herror
    have hmore := (testCase_guided.mono (language_le_many Case)).inhabited
    refine ((config_guided.stops hts hconfig).mul_right hmore).of_error ?_
    intro us hus
    rw [Parse.file, hus]
    rfl
  · have htakes := config_guided.takes hts hconfig
    have hcases : Parse.cases rest = .error r := by
      rw [Parse.file, hconfig, ok_bind] at herror
      rcases hmore : Parse.cases rest with r' | cases
      · simpa [hmore, bind, Except.bind] using herror
      · simp [hmore] at herror
    refine htakes.stops (cases_stops (htakes.delimited hts) hcases) ?_
    intro us rest' hus _ hrest
    simp only [Parse.file, hus, ok_bind, hrest]
    rfl

end Grammar
end CaseSuite
