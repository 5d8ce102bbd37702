import CaseSuite.CaseFile.Parse

/-!
# The grammar of case files

Each phrase of the grammar is a relation between a list of tokens and the part of the tree that it
denotes.  The relations say which tokens may stand side by side and nothing about how a reader
finds its way through them; lookahead is a matter of the parser alone.

Strings count by their value, numbers and names by their spelling, and a case keeps the line of
its first word.
-/

namespace CaseSuite
namespace Grammar

/-- One or more phrases in a row. -/
inductive Many {α : Type} (phrase : List Token → α → Prop) : List Token → List α → Prop
  | one {ts : List Token} {a : α}
      (first : phrase ts a) : Many phrase ts [a]
  | more {ts us : List Token} {a : α} {as : List α}
      (first : phrase ts a) (rest : Many phrase us as) : Many phrase (ts ++ us) (a :: as)

/-- A string of either form. -/
inductive Text : List Token → String → Prop
  | literal {t : Token} {content : String}
      (string : t.kind.isString) (value : t.value? = some content) : Text [t] content

/-- A name. -/
inductive Name : List Token → String → Prop
  | word {t : Token} (name : t.kind = .name) : Name [t] t.lexeme

/-- What a request asks: a query, or a query whose rows are kept. -/
inductive Query : List Token → String × Bool → Prop
  | plain {ts : List Token} {content : String}
      (text : Text ts content) : Query ts (content, false)
  | rows {word opening closing : Token} {ts : List Token} {content : String}
      (resultSet : word.kind = .keyword .resultSet) (left : opening.kind = .leftParen)
      (text : Text ts content) (right : closing.kind = .rightParen) :
      Query (word :: opening :: ts ++ [closing]) (content, true)

/-- The mark of a request that is not waited for, or its absence. -/
inductive Mark : List Token → Timing → Prop
  | sync : Mark [] .sync
  | async {t : Token} (word : t.kind = .keyword .async) : Mark [t] .async

/-- The terminal of a request, or its absence. -/
inductive Addressee : List Token → Target → Prop
  | implicit : Addressee [] .implicit
  | named {t : Token} (name : t.kind = .name) : Addressee [t] (.named t.lexeme)

/-- A request: its mark, its terminal, a colon and what it asks. -/
inductive Scoped : List Token → Request → Prop
  | intro {ms as qs : List Token} {colon : Token} {timing : Timing} {target : Target}
      {query : String} {fetch : Bool}
      (mark : Mark ms timing) (addressee : Addressee as target) (divider : colon.kind = .colon)
      (asked : Query qs (query, fetch)) :
      Scoped (ms ++ as ++ colon :: qs) ⟨target, timing, query, fetch⟩

/-- An operand. -/
inductive Expression : List Token → Expr → Prop
  | text {ts : List Token} {content : String}
      (text : Text ts content) : Expression ts (.text content)
  | number {t : Token} (number : t.kind = .number) : Expression [t] (.number t.lexeme)
  | name {ts : List Token} {name : String}
      (read : Name ts name) : Expression ts (.variable name)
  | request {ts : List Token} {r : Request}
      (sent : Scoped ts r) : Expression ts (.request r)

/-- A statement without its semicolon. -/
inductive Clause : List Token → Statement → Prop
  | request {ts : List Token} {r : Request}
      (sent : Scoped ts r) : Clause ts (.request r)
  | declare {word : Token} {ts : List Token} {names : List String}
      (terminal : word.kind = .keyword .terminal) (terms : Many Name ts names) :
      Clause (word :: ts) (.declare names)
  | assign {ns es : List Token} {equals : Token} {name : String} {value : Expr}
      (target : Name ns name) (sign : equals.kind = .equals) (operand : Expression es value) :
      Clause (ns ++ equals :: es) (.assign name value)
  | check {word opening comma closing : Token} {ls rs : List Token}
      {relation : Relation} {left right : Expr}
      (op : word.kind = .keyword (.check relation)) (before : opening.kind = .leftParen)
      (first : Expression ls left) (between : comma.kind = .comma)
      (second : Expression rs right) (after : closing.kind = .rightParen) :
      Clause (word :: opening :: ls ++ comma :: rs ++ [closing]) (.check relation left right)

/-- A statement and its semicolon. -/
inductive Sentence : List Token → Statement → Prop
  | intro {ts : List Token} {semicolon : Token} {s : Statement}
      (clause : Clause ts s) (stop : semicolon.kind = .semicolon) :
      Sentence (ts ++ [semicolon]) s

/-- A case: its word, its name and its statements in braces. -/
inductive Case : List Token → TestCase → Prop
  | intro {word opening closing : Token} {ns ss : List Token}
      {name : String} {statements : List Statement}
      (testCase : word.kind = .keyword .testCase) (named : Name ns name)
      (left : opening.kind = .leftBrace) (body : Many Sentence ss statements)
      (right : closing.kind = .rightBrace) :
      Case (word :: ns ++ opening :: ss ++ [closing]) ⟨name, word.position.line, statements⟩

/-- The configuration: its word and a string in braces. -/
inductive Configuration : List Token → String → Prop
  | intro {word opening closing : Token} {ts : List Token} {content : String}
      (config : word.kind = .keyword .config) (left : opening.kind = .leftBrace)
      (text : Text ts content) (right : closing.kind = .rightBrace) :
      Configuration (word :: opening :: ts ++ [closing]) content

/-- A whole case file: the configuration and at least one case. -/
inductive File : List Token → CaseFile → Prop
  | intro {ts us : List Token} {config : String} {cases : List TestCase}
      (configuration : Configuration ts config) (body : Many Case us cases) :
      File (ts ++ us) ⟨config, cases⟩

/-- Every string among the tokens is long enough for its quotes and so has a value. -/
def Delimited (ts : List Token) : Prop :=
  ∀ t ∈ ts, t.kind.isString → t.value?.isSome

end Grammar
end CaseSuite
