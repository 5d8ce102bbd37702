import CaseSuite.Text.Extending
import CaseSuite.Text.Printable
import CaseSuite.Text.Position

/-!
# Quoted text

The two literal forms of generated code. A quoted literal stands between quotes and escapes what
could end it or could not be seen; a raw literal holds its text verbatim inside a fence of number
signs, one longer than any run of them that follows a quote in the text.
-/

namespace CaseSuite.Text

/-- The double quote. -/
def doubleQuote : Char := '\x22'

/-- The single quote. -/
def singleQuote : Char := '\x27'

/-- A character as its code point in hexadecimal. -/
def escapeCode (c : Char) : List Char :=
  ['\\', 'u', '\x7b'] ++ Nat.toDigits 16 c.toNat ++ ['\x7d']

/-- A character that would not be seen as itself. -/
def isHidden (c : Char) : Bool :=
  isExtending c || !isPrintable c

/-- How one character is written between two quote characters, given which ones are hidden. -/
def escape (hidden : Char → Bool) (quote c : Char) : List Char :=
  if c = '\x00' then ['\\', '0']
  else if c = '\t' then ['\\', 't']
  else if c = '\r' then ['\\', 'r']
  else if c = '\n' then ['\\', 'n']
  else if c = quote || c = '\\' then ['\\', c]
  else if hidden c then escapeCode c
  else [c]

/-- A text between two quote characters. -/
def quoted (hidden : Char → Bool) (quote : Char) (cs : List Char) : List Char :=
  quote :: cs.flatMap (escape hidden quote) ++ [quote]

/-- The quoted literal of a text. -/
def literal (text : String) : String :=
  String.ofList (quoted isHidden doubleQuote text.toList)

/-- A character as it is shown in a message. -/
def charLiteral (c : Char) : String :=
  String.ofList (quoted isHidden singleQuote [c])

/-- A quote and as many number signs: what ends a raw literal with this fence. -/
def fenceEnd (hashes : Nat) : List Char :=
  doubleQuote :: List.replicate hashes '#'

theorem length_le_of_contains {needle hay : List Char} (h : contains needle hay) :
    needle.length ≤ hay.length := by
  induction hay with
  | nil =>
      simp only [contains, List.isEmpty_iff] at h
      simp [h]
  | cons c cs ih =>
      simp only [contains, Bool.or_eq_true, List.isPrefixOf_iff_prefix] at h
      rcases h with h | h
      · exact h.length_le
      · exact Nat.le_succ_of_le (ih h)

/-- The first fence, from a given length on, whose end does not occur in the text. -/
def fenceFrom (cs : List Char) (hashes : Nat) : Nat :=
  if contains (fenceEnd hashes) cs then fenceFrom cs (hashes + 1) else hashes
termination_by cs.length - hashes
decreasing_by
  have h := length_le_of_contains ‹contains (fenceEnd hashes) cs = true›
  simp only [fenceEnd, List.length_cons, List.length_replicate] at h
  omega

/-- The length of the fence around a raw literal; there is always at least one number sign. -/
def fence (cs : List Char) : Nat :=
  fenceFrom cs 1

/-- The raw literal of a text. -/
def rawLiteral (text : String) : String :=
  let cs := text.toList
  let hashes := List.replicate (fence cs) '#'
  String.ofList ('r' :: hashes ++ doubleQuote :: cs ++ doubleQuote :: hashes)

end CaseSuite.Text
