import CaseSuite.Report.Excerpt

/-!
# Reports

A report is a headline, an excerpt of the text with the span of the error marked and, for an error
with a place, the line of that place again with a caret below it.
-/

namespace CaseSuite

namespace Report

/-- The characters since the last line feed. -/
def lineBefore (before : List Char) : List Char :=
  (before.reverse.takeWhile (· != '\n')).reverse

/-- The line around a cut between two characters. -/
def lineAround (before after : List Char) : List Char :=
  lineBefore before ++ after.takeWhile (· != '\n')

/-- Blanks as wide as a text: tabs stay tabs. -/
def padding (cs : List Char) : List Char :=
  cs.map fun c => if c = '\t' then '\t' else ' '

/-- The line that holds a byte offset, and a caret under it. -/
def fragment (source : List Char) (offset : Nat) : List (List Char) :=
  let before := Text.takeBytes offset source
  let after := source.drop before.length
  ["[Cases Code Fragment]".toList, lineAround before after, padding (lineBefore before) ++ ['^']]

/-- Rows as text. -/
def unlines (rows : List (List Char)) : String :=
  String.ofList (rows.flatMap (· ++ ['\n']))

end Report

open Report

/-- The report of an error in a text. -/
def CompileError.report (e : CompileError) (source filename : String) : String :=
  let cs := source.toList
  let headline := "Error: ".toList ++ e.title.toList ++ ": ".toList ++ e.message.toList
  let excerpt := excerpt filename.toList cs (e.span cs) e.label.toList
  let fragment := match e.position? with
    | some p => fragment cs p.offset
    | none => []
  unlines (headline :: excerpt ++ fragment)

end CaseSuite
