import CaseSuite.Compile

/-!
# What an error points at

A report marks a span of characters: the offending text for an error with a place, the first
character for one without. Offsets of errors count bytes and are turned into characters here.
-/

namespace CaseSuite

/-- The characters from `start` up to and without `stop`. -/
structure Span where
  start : Nat
  stop : Nat
  deriving DecidableEq, Repr

namespace CompileError

/-- The stage that failed, as the heading of a report. -/
def title : CompileError → String
  | scan _ => "Lex error"
  | parse _ => "Parse error"
  | plan _ => "Lowering error"
  | name _ => "Code generation error"

/-- The place of an error of the text itself. -/
def position? : CompileError → Option Position
  | scan e => some e.position
  | parse e => some e.position
  | plan _ => none
  | name _ => none

/-- How many characters an error covers. -/
def width : CompileError → Nat
  | parse (.unexpected found _) => found.lexeme.length
  | _ => 1

/-- What is written beside the mark. -/
def label (e : CompileError) : String :=
  match e.position? with
  | some p => "Line:" ++ Nat.repr p.line ++ ",Column:" ++ Nat.repr p.column
  | none => e.message

/-- The first character an error covers, if the text has one there. -/
def start (e : CompileError) (source : List Char) : Nat :=
  match e.position? with
  | some p => (Text.takeBytes p.offset source).length
  | none => 0

/-- The span of an error: never empty, and inside the text unless the text is empty. -/
def span (e : CompileError) (source : List Char) : Span :=
  let start := min (e.start source) (source.length - 1)
  ⟨start, min (start + max e.width 1) (max source.length (start + 1))⟩

end CompileError

end CaseSuite
