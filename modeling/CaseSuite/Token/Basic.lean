import CaseSuite.Relation
import CaseSuite.Text.Position

/-!
# Tokens of a case file

A token is a kind, the text it was written with and the place where that text begins. String tokens
carry a value: the text between their quotes, with escapes resolved in the short form.
-/

namespace CaseSuite

/-- A reserved word. -/
inductive Keyword where
  | async
  | ifWord
  | thenWord
  | elseWord
  | whileWord
  | testCase
  | terminal
  | resultSet
  | config
  | check (relation : Relation)
  deriving DecidableEq, Repr

namespace Keyword

/-- Every reserved word. -/
def all : List Keyword :=
  [async, ifWord, thenWord, elseWord, whileWord, testCase, terminal, resultSet, config] ++
    Relation.all.map check

/-- How a reserved word is spelled. -/
def text : Keyword → String
  | async => "Async"
  | ifWord => "if"
  | thenWord => "then"
  | elseWord => "else"
  | whileWord => "while"
  | testCase => "TestCase"
  | terminal => "Terminal"
  | resultSet => "ResultSet"
  | config => "Config"
  | check relation => relation.word

/-- The reserved word with a given spelling. -/
def ofText? (word : String) : Option Keyword :=
  all.find? fun k => k.text == word

end Keyword

namespace Token

/-- The kinds of token; `ending` marks the end of the input. -/
inductive Kind where
  | rawString
  | string
  | number
  | leftBrace
  | rightBrace
  | colon
  | comma
  | semicolon
  | equals
  | leftParen
  | rightParen
  | name
  | keyword (word : Keyword)
  | ending
  deriving DecidableEq, Repr

namespace Kind

/-- How a kind is named in a message. -/
def describe : Kind → String
  | rawString => "raw string"
  | string => "string"
  | number => "number"
  | leftBrace => "'\x7b'"
  | rightBrace => "'\x7d'"
  | colon => "':'"
  | comma => "','"
  | semicolon => "';'"
  | equals => "'='"
  | leftParen => "'('"
  | rightParen => "')'"
  | name => "identifier"
  | keyword word => "'" ++ word.text ++ "'"
  | ending => "end of input"

/-- The two kinds of string literal. -/
def isString : Kind → Bool
  | rawString | string => true
  | _ => false

end Kind

end Token

/-- A token, its spelling and the place of its first character. -/
structure Token where
  kind : Token.Kind
  lexeme : String
  position : Position
  deriving DecidableEq, Repr

namespace Token

/-- Resolve the escapes of a quoted string: a backslash before a quote or a backslash vanishes. -/
def unescape : List Char → List Char
  | '\\' :: c :: cs =>
      if c = '\x22' || c = '\\' then c :: unescape cs else '\\' :: unescape (c :: cs)
  | c :: cs => c :: unescape cs
  | [] => []

/--
The value of a token: a string's text without its quotes, any other token's spelling. A string
token whose spelling is too short for its quotes has no value.
-/
def value? (t : Token) : Option String :=
  let cs := t.lexeme.toList
  match t.kind with
  | .rawString => (Text.byteSlice? cs 3 (Text.byteLength cs - 3)).map String.ofList
  | .string => (Text.byteSlice? cs 1 (Text.byteLength cs - 1)).map (String.ofList ∘ unescape)
  | _ => some t.lexeme

/-- The value of a well delimited token. -/
def value (t : Token) : String :=
  t.value?.getD ""

/-- The token that marks the end of the input. -/
def ending (position : Position) : Token :=
  ⟨.ending, "", position⟩

/-- The place just after a token on one line. -/
def after (t : Token) : Position :=
  ⟨t.position.line, t.position.column + t.lexeme.length,
    t.position.offset + t.lexeme.utf8ByteSize⟩

end Token

end CaseSuite
