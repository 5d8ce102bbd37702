import CaseSuite.Listing.Name

/-!
# Pages

A page is text with a depth of indentation. What is written to it is a list of marks; a draft is
the marks of a construct up to its end or up to the first name that cannot be written.
-/

namespace CaseSuite.Listing

/-- One thing that is written to a page. -/
inductive Mark where
  | line (text : String)
  | blank
  /-- A line that opens a block. -/
  | opening (text : String)
  /-- A line that closes a block. -/
  | closing (text : String)
  /-- A line that closes one block and opens the next. -/
  | reopening (text : String)
  deriving DecidableEq, Repr

/-- The text written so far and the depth of the line that comes next. -/
structure Page where
  text : String := ""
  depth : Nat := 0
  deriving DecidableEq, Repr

namespace Page

/-- The blanks in front of a line. -/
def indentation (depth : Nat) : String :=
  String.ofList (List.replicate (4 * depth) ' ')

/-- Write one line at the depth reached. -/
def line (p : Page) (text : String) : Page :=
  { p with text := p.text ++ indentation p.depth ++ text ++ "\n" }

/-- Change the depth of what follows. -/
def indent (p : Page) : Page := { p with depth := p.depth + 1 }

/-- Go back one level; at the margin nothing changes. -/
def dedent (p : Page) : Page := { p with depth := p.depth - 1 }

/-- Write a mark. -/
def write (p : Page) : Mark → Page
  | .line text => p.line text
  | .blank => { p with text := p.text ++ "\n" }
  | .opening text => (p.line text).indent
  | .closing text => p.dedent.line text
  | .reopening text => (p.dedent.line text).indent

/-- Write marks in order. -/
def writeAll (p : Page) (marks : List Mark) : Page :=
  marks.foldl write p

end Page

/-- The marks of a construct, and the name that cut them short. -/
structure Draft where
  marks : List Mark := []
  fault : Option NameError := none
  deriving DecidableEq, Repr

namespace Draft

/-- Marks that cannot fail. -/
def ofMarks (marks : List Mark) : Draft := { marks }

/-- One line, unless its text holds a name that cannot be written. -/
def line : Except NameError String → Draft
  | .ok text => { marks := [.line text] }
  | .error e => { fault := some e }

/-- One draft after another; nothing follows a fault. -/
def append (a b : Draft) : Draft :=
  match a.fault with
  | some e => ⟨a.marks, some e⟩
  | none => ⟨a.marks ++ b.marks, b.fault⟩

instance : Append Draft := ⟨append⟩

/-- Drafts in order. -/
def concat (drafts : List Draft) : Draft :=
  drafts.foldr (· ++ ·) {}

/-- Write a draft; what precedes a fault stays written. -/
def writeTo (d : Draft) (p : Page) : Page × Option NameError :=
  (p.writeAll d.marks, d.fault)

end Draft

end CaseSuite.Listing
