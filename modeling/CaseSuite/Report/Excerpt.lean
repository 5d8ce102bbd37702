import CaseSuite.Report.Span
import CaseSuite.Text.Blank
import CaseSuite.Text.Width

/-!
# Drawing an excerpt

The lines that a span touches, with the span underlined and a label tied to it. A span within one
line is marked below it; a longer one is tied from its first line to its last.
-/

namespace CaseSuite.Report

/-- A character that ends a line by itself. -/
def isLineEnd (c : Char) : Bool :=
  c = '\n' || c = '\r' || c = '\x0b' || c = '\x0c' || c = '\u0085' ||
    c = '\u2028' || c = '\u2029'

/-- Lines with the characters that end them; a carriage return and a line feed end one line. -/
def splitLines : List Char → List (List Char)
  | [] => []
  | '\r' :: '\n' :: cs => ['\r', '\n'] :: splitLines cs
  | c :: cs =>
      if isLineEnd c then [c] :: splitLines cs
      else
        match splitLines cs with
        | [] => [[c]]
        | line :: lines => (c :: line) :: lines

/-- A line of a text, its number from one and the characters before it. -/
structure Line where
  number : Nat
  offset : Nat
  text : List Char

/-- Number lines from a given number and offset. -/
def numberLines (number offset : Nat) : List (List Char) → List Line
  | [] => []
  | text :: rest => ⟨number, offset, text⟩ :: numberLines (number + 1) (offset + text.length) rest

/-- The last line that begins at or before a character. -/
def lineAt? (lines : List Line) (index : Nat) : Option Line :=
  (lines.filter (·.offset ≤ index)).getLast?

/-- Drop white space at the end. -/
def trimEnd (cs : List Char) : List Char :=
  (cs.reverse.dropWhile Text.isBlank).reverse

/-- The character shown and its cells; a tab reaches to the next multiple of four. -/
def cells (c : Char) (column : Nat) : Char × Nat :=
  if c = '\t' then (' ', (column / 4 + 1) * 4 - column)
  else if Text.isBlank c then (' ', 1)
  else (c, Text.cellWidth c)

namespace Line

/-- A line as it is shown. -/
def shown (l : Line) : List Char :=
  (trimEnd l.text).zipIdx.flatMap fun (c, column) =>
    match cells c column with
    | (' ', n) => List.replicate n ' '
    | (c, _) => [c]

/-- The cells of the first `n` columns; there is one for each column after the end. -/
def cellWidths (l : Line) (n : Nat) : List Nat :=
  let widths := (trimEnd l.text).zipIdx.map fun (c, column) => (cells c column).2
  (widths ++ List.replicate (n - widths.length) 1).take n

/-- A row under a line: for each column a first character and one for its further cells. -/
def under (l : Line) (n : Nat) (f : Nat → Char × Char) : List Char :=
  (l.cellWidths n).zipIdx.flatMap fun (width, column) =>
    if 0 < width then (f column).1 :: List.replicate (width - 1) (f column).2 else []

end Line

/-- Where the lines of an excerpt begin: the digits of its largest line number. -/
structure Margin where
  digits : Nat

namespace Margin

/-- Blanks as wide as a line number with its surroundings. -/
def gap (m : Margin) : List Char := List.replicate (m.digits + 2) ' '

/-- The start of a row without a number. -/
def plain (m : Margin) : List Char := m.gap ++ ['|', ' ']

/-- The start of the row of a line. -/
def numbered (m : Margin) (l : Line) : List Char :=
  let digits := Number.digitsOf l.number
  ' ' :: List.replicate (m.digits - digits.length) ' ' ++ digits ++ [' ', '|', ' ']

end Margin

/-- The rows of a span within one line: the line, its underline and the label. -/
def withinLine (m : Margin) (l : Line) (span : Span) (label : List Char) : List (List Char) :=
  let start := span.start - l.offset
  let stop := span.stop - l.offset
  let middle := (span.start + span.stop) / 2 - l.offset
  let underline (column : Nat) : Char × Char :=
    if column = middle then ('|', '^')
    else if start ≤ column && column < stop then ('^', '^')
    else (' ', ' ')
  let tie (column : Nat) : Char × Char :=
    if column = middle then ('\x60', '-')
    else if middle < column then ('-', '-')
    else (' ', ' ')
  [m.numbered l ++ l.shown,
   m.plain ++ l.under (stop + 2) underline,
   m.plain ++ l.under (stop + 2) tie ++ ' ' :: label]

/-- The rows of a span over several lines: its first line, its last line and the label. -/
def acrossLines (m : Margin) (first last : Line) (label : List Char) : List (List Char) :=
  let n := last.text.length + 2
  let skipped := if first.number + 1 < last.number then [m.gap ++ [':', ' ', ':', ' ', ' ', ' ']] else []
  [m.numbered first ++ [',', '-', '>', ' '] ++ first.shown] ++ skipped ++
  [m.numbered last ++ ['|', '-', '>', ' '] ++ last.shown,
   m.plain ++ ['|', ' ', ' ', ' '] ++ last.under n fun _ => (' ', ' '),
   m.plain ++ ['\x60', '-', '-', '-'] ++ (last.under n fun _ => ('-', '-')) ++ ' ' :: label]

/-- The rows of an excerpt; an empty text has none. -/
def excerpt (filename : List Char) (source : List Char) (span : Span) (label : List Char) :
    List (List Char) :=
  let lines := numberLines 1 0 (splitLines source)
  match lineAt? lines span.start, lineAt? lines (span.stop - 1) with
  | some first, some last =>
      let m : Margin := ⟨Number.digitCount last.number⟩
      let place := ':' :: Number.digitsOf first.number ++
        ':' :: Number.digitsOf (span.start - first.offset + 1)
      let rows :=
        if first.number = last.number then withinLine m first span label
        else acrossLines m first last label
      [m.gap ++ [',', '-', '['] ++ filename ++ place ++ [']'], m.gap ++ ['|']] ++ rows ++
        [List.replicate (m.digits + 2) '-' ++ ['\x27']]
  | _, _ => []

end CaseSuite.Report
