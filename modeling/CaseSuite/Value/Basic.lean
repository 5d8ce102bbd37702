import CaseSuite.Number.Text
import CaseSuite.Text.Position

/-!
# Values

What a case binds, compares and prints. A result set is a list of rows and a row a list of cells.
-/

namespace CaseSuite

/-- A value of a running case. -/
inductive Value where
  | null
  | bool (b : Bool)
  | int (n : Int64)
  | float (x : Binary64)
  | text (content : String)
  | list (items : List Value)
  deriving Repr, Inhabited

namespace Value

/-- The name of a value's type. -/
def typeName : Value → String
  | null => "null"
  | bool _ => "bool"
  | int _ => "int"
  | float _ => "float"
  | text _ => "text"
  | list _ => "list"

/-! ## Equality -/

mutual

/--
Equality of values. An integer and a double are equal if the double denotes exactly that integer;
lists are equal item by item.
-/
def equal : Value → Value → Bool
  | null, null => true
  | bool a, bool b => a == b
  | int a, int b => a == b
  | float a, float b => a.equal b
  | int a, float b => b.equalsInt a
  | float a, int b => a.equalsInt b
  | text a, text b => a == b
  | list as, list bs => equalAll as bs
  | _, _ => false

/-- Equality of lists of values. -/
def equalAll : List Value → List Value → Bool
  | [], [] => true
  | a :: as, b :: bs => equal a b && equalAll as bs
  | _, _ => false

end

/-! ## Text -/

mutual

/-- The text of a value; a text inside a list stands in quotes. -/
def displayIn (inList : Bool) : Value → String
  | null => "NULL"
  | bool b => if b then "true" else "false"
  | int n => Number.intText n.toInt
  | float x => x.text
  | text content => if inList then "'" ++ content ++ "'" else content
  | list items => "[" ++ displayItems items ++ "]"

/-- The texts of the items of a list with commas between them. -/
def displayItems : List Value → String
  | [] => ""
  | [item] => displayIn true item
  | item :: items => displayIn true item ++ ", " ++ displayItems items

end

/-- The text of a value. -/
def display (v : Value) : String := v.displayIn false

/--
A list contains what equals one of its items, a text contains what its text occurs in; nothing else
is a container.
-/
def contains? : Value → Value → Option Bool
  | list items, member => some (items.any (equal · member))
  | text content, member => some (Text.contains member.display.toList content.toList)
  | _, _ => none

end Value

end CaseSuite
