import CaseSuite.Proofs.Grammar.Reading
import CaseSuite.Proofs.Text.Bytes

/-!
# Printing case files

A tree is written back as tokens: strings in their short form with quotes and backslashes
protected, everything else as it is spelled.  Tokens stand on the line of their case.  What is
printed is a sentence of the grammar for that very tree, so parsing gives the tree back.
-/

namespace CaseSuite

namespace Token

/-- Protect every quote and every backslash of a text by a backslash. -/
def escape : List Char → List Char
  | [] => []
  | c :: cs => if c = '\x22' ∨ c = '\\' then '\\' :: c :: escape cs else c :: escape cs

theorem unescape_escape (cs : List Char) : unescape (escape cs) = cs := by
  induction cs with
  | nil => rfl
  | cons c cs ih =>
      by_cases hc : c = '\x22' ∨ c = '\\'
      · simp [escape, unescape, hc, ih]
      · have hslash : c ≠ '\\' := fun h => hc (Or.inr h)
        rw [escape, if_neg hc]
        simp [unescape, hslash, ih]

/-- The spelling of a kind that has only one. -/
def Kind.spelling : Kind → String
  | .leftBrace => "\x7b"
  | .rightBrace => "\x7d"
  | .colon => ":"
  | .comma => ","
  | .semicolon => ";"
  | .equals => "="
  | .leftParen => "("
  | .rightParen => ")"
  | .keyword word => word.text
  | _ => ""

/-- A token of a kind that has only one spelling. -/
def mark (line : Nat) (kind : Kind) : Token :=
  ⟨kind, kind.spelling, ⟨line, 1, 0⟩⟩

/-- A name as a token. -/
def name (line : Nat) (spelling : String) : Token :=
  ⟨.name, spelling, ⟨line, 1, 0⟩⟩

/-- A number as a token. -/
def number (line : Nat) (literal : String) : Token :=
  ⟨.number, literal, ⟨line, 1, 0⟩⟩

/-- A text between quotes. -/
def quoted (line : Nat) (content : String) : Token :=
  ⟨.string, String.ofList ('\x22' :: escape content.toList ++ ['\x22']), ⟨line, 1, 0⟩⟩

theorem value?_quoted (line : Nat) (content : String) :
    (quoted line content).value? = some content := by
  have hslice := Text.byteSlice?_between ['\x22'] (escape content.toList) ['\x22']
  have hquote : Text.byteLength ['\x22'] = 1 := by decide
  rw [hquote, List.singleton_append] at hslice
  simp only [value?, quoted, String.toList_ofList, hslice]
  simp [unescape_escape]

end Token

open Token (mark)

/-- The tokens of a request. -/
def Request.tokens (line : Nat) (r : Request) : List Token :=
  let timing := match r.timing with
    | .sync => []
    | .async => [mark line (.keyword .async)]
  let target := match r.target with
    | .implicit => []
    | .named name => [.name line name]
  let query := if r.fetch then
      mark line (.keyword .resultSet) :: mark line .leftParen :: [.quoted line r.query] ++
        [mark line .rightParen]
    else [.quoted line r.query]
  timing ++ target ++ mark line .colon :: query

/-- The tokens of an operand. -/
def Expr.tokens (line : Nat) : Expr → List Token
  | .text content => [.quoted line content]
  | .number literal => [.number line literal]
  | .variable name => [.name line name]
  | .request r => r.tokens line

/-- The tokens of a statement without its semicolon. -/
def Statement.tokens (line : Nat) : Statement → List Token
  | .request r => r.tokens line
  | .declare names => mark line (.keyword .terminal) :: names.map (.name line)
  | .assign target value => [.name line target] ++ mark line .equals :: value.tokens line
  | .check relation left right =>
      mark line (.keyword (.check relation)) :: mark line .leftParen :: left.tokens line ++
        mark line .comma :: right.tokens line ++ [mark line .rightParen]

/-- The tokens of a case. -/
def TestCase.tokens (c : TestCase) : List Token :=
  mark c.line (.keyword .testCase) :: [.name c.line c.name] ++ mark c.line .leftBrace ::
    c.statements.flatMap (fun s => s.tokens c.line ++ [mark c.line .semicolon]) ++
    [mark c.line .rightBrace]

/-- The tokens of a case file, without an end mark. -/
def CaseFile.tokens (file : CaseFile) : List Token :=
  (mark 1 (.keyword .config) :: mark 1 .leftBrace :: [.quoted 1 file.config] ++
    [mark 1 .rightBrace]) ++ file.cases.flatMap TestCase.tokens

/-- There is a case, every case has a statement and every declaration a name. -/
def CaseFile.Filled (file : CaseFile) : Prop :=
  file.cases ≠ [] ∧ ∀ c ∈ file.cases, c.statements ≠ [] ∧
    ∀ names, Statement.declare names ∈ c.statements → names ≠ []

namespace Grammar

/-! ## What is printed is a sentence -/

theorem text_quoted (line : Nat) (content : String) : Text [.quoted line content] content :=
  Text.literal rfl (Token.value?_quoted line content)

theorem many_of_forall {α : Type} {phrase : List Token → α → Prop} {print : α → List Token}
    {as : List α} (hne : as ≠ []) (h : ∀ a ∈ as, phrase (print a) a) :
    Many phrase (as.flatMap print) as := by
  induction as with
  | nil => exact absurd rfl hne
  | cons a as ih =>
      cases as with
      | nil =>
          rw [List.flatMap_singleton]
          exact Many.one (h a (by simp))
      | cons b as =>
          rw [List.flatMap_cons]
          exact Many.more (h a (by simp)) (ih (by simp) fun c hc => h c (by simp [hc]))

theorem scoped_tokens (line : Nat) (r : Request) : Scoped (r.tokens line) r := by
  obtain ⟨target, timing, query, fetch⟩ := r
  refine Scoped.intro ?_ ?_ rfl ?_
  · cases timing with
    | sync => exact Mark.sync
    | async => exact Mark.async rfl
  · cases target with
    | implicit => exact Addressee.implicit
    | named name => exact Addressee.named (t := .name line name) rfl
  · cases fetch with
    | false => exact Query.plain (text_quoted line query)
    | true => exact Query.rows rfl rfl (text_quoted line query) rfl

theorem expression_tokens (line : Nat) (e : Expr) : Expression (e.tokens line) e := by
  cases e with
  | text content => exact Expression.text (text_quoted line content)
  | number literal => exact Expression.number (t := .number line literal) rfl
  | «variable» name => exact Expression.name (Name.word (t := .name line name) rfl)
  | request r => exact Expression.request (scoped_tokens line r)

theorem clause_tokens (line : Nat) (s : Statement)
    (hnames : ∀ names, s = .declare names → names ≠ []) :
    Clause (s.tokens line) s := by
  cases s with
  | request r => exact Clause.request (scoped_tokens line r)
  | declare names =>
      refine Clause.declare rfl ?_
      rw [List.map_eq_flatMap]
      exact many_of_forall (hnames names rfl)
        fun name _ => Name.word (t := .name line name) rfl
  | assign target value =>
      exact Clause.assign (Name.word (t := .name line target) rfl) rfl
        (expression_tokens line value)
  | check relation left right =>
      exact Clause.check rfl rfl (expression_tokens line left) rfl (expression_tokens line right)
        rfl

theorem case_tokens (c : TestCase) (hne : c.statements ≠ [])
    (hnames : ∀ names, Statement.declare names ∈ c.statements → names ≠ []) :
    Case c.tokens c := by
  have hword : (mark c.line (.keyword .testCase)).kind = .keyword .testCase := rfl
  refine Case.intro hword (Name.word (t := .name c.line c.name) rfl) rfl ?_ rfl
  apply many_of_forall hne
  intro s hs
  refine Sentence.intro (clause_tokens c.line s ?_) rfl
  rintro names rfl
  exact hnames names hs

theorem file_tokens (file : CaseFile) (h : file.Filled) : File file.tokens file := by
  refine File.intro (Configuration.intro rfl rfl (text_quoted 1 file.config) rfl) ?_
  apply many_of_forall h.1
  intro c hc
  exact case_tokens c (h.2 c hc).1 (h.2 c hc).2

/-! ## Sentences hold no end mark -/

/-- No token marks the end. -/
def Unended (ts : List Token) : Prop :=
  ∀ t ∈ ts, t.kind ≠ .ending

@[simp] theorem unended_nil : Unended [] := by
  simp [Unended]

@[simp] theorem unended_cons {t : Token} {ts : List Token} :
    Unended (t :: ts) ↔ t.kind ≠ .ending ∧ Unended ts := by
  simp [Unended]

@[simp] theorem unended_append {ts us : List Token} :
    Unended (ts ++ us) ↔ Unended ts ∧ Unended us := by
  simp only [Unended, List.mem_append]
  constructor
  · intro h
    exact ⟨fun t ht => h t (Or.inl ht), fun t ht => h t (Or.inr ht)⟩
  · rintro ⟨hts, hus⟩ t (ht | ht)
    · exact hts t ht
    · exact hus t ht

theorem Many.unended {α : Type} {phrase : List Token → α → Prop}
    (hphrase : ∀ {ts a}, phrase ts a → Unended ts)
    {ts : List Token} {as : List α} (h : Many phrase ts as) : Unended ts := by
  induction h with
  | one hfirst => exact hphrase hfirst
  | more hfirst _ ih => exact unended_append.mpr ⟨hphrase hfirst, ih⟩

theorem Text.unended {ts : List Token} {content : String} (h : Text ts content) :
    Unended ts := by
  cases h with
  | literal hkind _ =>
      refine unended_cons.mpr ⟨?_, unended_nil⟩
      intro hend
      simp [hend, Token.Kind.isString] at hkind

theorem Name.unended {ts : List Token} {name : String} (h : Name ts name) : Unended ts := by
  cases h with
  | word hname => simp [hname]

theorem Scoped.unended {ts : List Token} {r : Request} (h : Scoped ts r) : Unended ts := by
  cases h with
  | @intro ms as qs colon timing target query fetch hmark haddressee hcolon hquery =>
      have hms : Unended ms := by
        cases hmark with
        | sync => simp
        | async hword => simp [hword]
      have has : Unended as := by
        cases haddressee with
        | implicit => simp
        | named hname => simp [hname]
      have hqs : Unended qs := by
        cases hquery with
        | plain htext => exact htext.unended
        | rows hword hopening htext hclosing => simp [hword, hopening, htext.unended, hclosing]
      simp [hms, has, hcolon, hqs]

theorem Expression.unended {ts : List Token} {e : Expr} (h : Expression ts e) :
    Unended ts := by
  cases h with
  | text htext => exact htext.unended
  | number hnumber => simp [hnumber]
  | name hname => exact hname.unended
  | request hscoped => exact hscoped.unended

theorem Sentence.unended {ts : List Token} {s : Statement} (h : Sentence ts s) :
    Unended ts := by
  cases h with
  | intro hclause hstop =>
      refine unended_append.mpr ⟨?_, by simp [hstop]⟩
      cases hclause with
      | request hscoped => exact hscoped.unended
      | declare hword hnames => simp [hword, hnames.unended Name.unended]
      | assign hname hsign hvalue => simp [hname.unended, hsign, hvalue.unended]
      | check hword hopening hleft hcomma hright hclosing =>
          simp [hword, hopening, hleft.unended, hcomma, hright.unended, hclosing]

theorem Case.unended {ts : List Token} {c : TestCase} (h : Case ts c) : Unended ts := by
  cases h with
  | intro hword hname hopening hbody hclosing =>
      simp [hword, hname.unended, hopening, hbody.unended Sentence.unended, hclosing]

theorem File.unended {ts : List Token} {file : CaseFile} (h : File ts file) : Unended ts := by
  cases h with
  | intro hconfiguration hcases =>
      refine unended_append.mpr ⟨?_, hcases.unended Case.unended⟩
      cases hconfiguration with
      | intro hword hopening htext hclosing =>
          simp [hword, hopening, htext.unended, hclosing]

/-- The tokens in front of an end mark are those before the first one. -/
theorem body_append_ending
    {ts : List Token} (h : Unended ts) (position : Position) (rest : List Token) :
    CaseFile.body (ts ++ .ending position :: rest) = ts := by
  have hall : ∀ t ∈ ts, (t.kind != .ending) = true := by simpa [Unended] using h
  rw [CaseFile.body, List.takeWhile_append_of_pos hall]
  simp [Token.ending]

theorem body_eq_self {ts : List Token} (h : Unended ts) : CaseFile.body ts = ts := by
  have hall : ∀ t ∈ ts, (t.kind != .ending) = true := by simpa [Unended] using h
  rw [← List.append_nil ts, CaseFile.body, List.takeWhile_append_of_pos hall]
  rfl

/-! ## Parsing is exact -/

/-- A stream whose tokens up to the end form a sentence is parsed to the tree of that sentence. -/
theorem parse_of_file
    {ts : List Token} {file : CaseFile} (h : File (CaseFile.body ts) file) :
    CaseFile.parse ts = .ok file := by
  simp [CaseFile.parse, file_of_sentence h]

theorem delimited_body {ts : List Token} (h : Delimited ts) : Delimited (CaseFile.body ts) := by
  intro t ht
  exact h t ((List.takeWhile_sublist _).mem ht)

theorem file_of_parse
    {ts : List Token} {file : CaseFile} (hts : Delimited ts)
    (h : CaseFile.parse ts = .ok file) : File (CaseFile.body ts) file := by
  unfold CaseFile.parse at h
  split at h
  · rename_i hfile
    cases h
    exact sentence_of_file (delimited_body hts) hfile
  · cases h
  · cases h

/-- A list of tokens is a sentence for at most one tree. -/
theorem File.unique
    {ts : List Token} {file file' : CaseFile} (h : File ts file) (h' : File ts file') :
    file = file' := by
  have hparse := file_of_sentence h
  rw [file_of_sentence h'] at hparse
  exact (Except.ok.inj hparse).symm

/--
The parser accepts exactly the streams whose tokens before the first end mark form a sentence of
the grammar, and gives the one tree of that sentence.  Every tree without empty lists has such a
stream: its own tokens, with or without an end mark and whatever follows that mark.
-/
theorem parse_eq_ok_iff_sentence :
    (∀ ts : List Token, Delimited ts → ∀ file : CaseFile,
      CaseFile.parse ts = .ok file ↔ File (CaseFile.body ts) file) ∧
    (∀ (ts : List Token) (file file' : CaseFile), File ts file → File ts file' → file = file') ∧
    (∀ file : CaseFile, file.Filled →
      CaseFile.parse file.tokens = .ok file ∧
      ∀ (position : Position) (rest : List Token),
        CaseFile.parse (file.tokens ++ .ending position :: rest) = .ok file) := by
  refine ⟨?_, ?_, ?_⟩
  · intro ts hts file
    exact ⟨file_of_parse hts, parse_of_file⟩
  · intro ts file file' h h'
    exact h.unique h'
  · intro file hfilled
    have hfile : File file.tokens file := file_tokens file hfilled
    constructor
    · apply parse_of_file
      rwa [body_eq_self hfile.unended]
    · intro position rest
      apply parse_of_file
      rwa [body_append_ending hfile.unended]

/-- A case with every kind of statement and of operand. -/
def everyPhrase : CaseFile :=
  ⟨"say \x22\\\x22", [⟨"all", 3,
    [.declare ["a", "b"], .request ⟨.named "a", .async, "q", false⟩,
      .assign "x" (.request ⟨.implicit, .sync, "r", true⟩),
      .check .member (.variable "x") (.number "1"),
      .check .textEqual (.text "") (.request ⟨.named "b", .sync, "s", false⟩)]⟩]⟩

theorem parse_everyPhrase_tokens :
    everyPhrase.Filled ∧ Delimited everyPhrase.tokens ∧
      CaseFile.parse everyPhrase.tokens = .ok everyPhrase ∧
      File (CaseFile.body everyPhrase.tokens) everyPhrase := by
  have hfilled : everyPhrase.Filled := by simp [CaseFile.Filled, everyPhrase]
  have hdelimited : Delimited everyPhrase.tokens := by
    simp [Delimited, everyPhrase, CaseFile.tokens, TestCase.tokens, Statement.tokens, Expr.tokens,
      Request.tokens, Token.mark, Token.name, Token.number, Token.value?_quoted,
      Token.Kind.isString]
  have hparse := (parse_eq_ok_iff_sentence.2.2 everyPhrase hfilled).1
  exact ⟨hfilled, hdelimited, hparse,
    (parse_eq_ok_iff_sentence.1 everyPhrase.tokens hdelimited everyPhrase).mp hparse⟩

end Grammar

end CaseSuite
