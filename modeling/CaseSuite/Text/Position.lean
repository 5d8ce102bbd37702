/-!
# Positions in a text

A position names a place between two characters by line, column and byte offset. Lines and columns
count characters from one and only a line feed ends a line; offsets count the bytes of the text's
UTF-8 form. Cuts at byte offsets are partial: they exist only between two characters.
-/

namespace CaseSuite

/-- A place in a text. -/
structure Position where
  /-- One more than the number of line feeds before the place. -/
  line : Nat
  /-- One more than the number of characters since the last line feed. -/
  column : Nat
  /-- The number of bytes before the place. -/
  offset : Nat
  deriving DecidableEq, Repr, Inhabited

namespace Position

/-- The place before the first character. -/
def start : Position := ⟨1, 1, 0⟩

/-- The place after one more character. -/
def next (p : Position) (c : Char) : Position :=
  if c = '\n' then ⟨p.line + 1, 1, p.offset + c.utf8Size⟩
  else ⟨p.line, p.column + 1, p.offset + c.utf8Size⟩

/-- The place after a run of characters. -/
def advance (p : Position) (cs : List Char) : Position :=
  cs.foldl next p

end Position

namespace Text

/-- The number of bytes of the UTF-8 form. -/
def byteLength : List Char → Nat
  | [] => 0
  | c :: cs => c.utf8Size + byteLength cs

/-- Cut a text at a byte offset; there is no cut inside a character or beyond the end. -/
def splitAtByte? : Nat → List Char → Option (List Char × List Char)
  | 0, cs => some ([], cs)
  | _ + 1, [] => none
  | n + 1, c :: cs =>
      if c.utf8Size ≤ n + 1 then
        (splitAtByte? (n + 1 - c.utf8Size) cs).map fun (before, after) => (c :: before, after)
      else none

/-- The characters between two byte offsets, if both are cuts and in order. -/
def byteSlice? (cs : List Char) (first last : Nat) : Option (List Char) :=
  if first ≤ last then do
    let (_, after) ← splitAtByte? first cs
    let (middle, _) ← splitAtByte? (last - first) after
    return middle
  else none

/-- The characters that lie wholly before a byte offset. -/
def takeBytes : Nat → List Char → List Char
  | _, [] => []
  | n, c :: cs => if c.utf8Size ≤ n then c :: takeBytes (n - c.utf8Size) cs else []

/-- One text occurs in another. -/
def contains (needle : List Char) : List Char → Bool
  | [] => needle.isEmpty
  | c :: cs => needle.isPrefixOf (c :: cs) || contains needle cs

end Text

end CaseSuite
