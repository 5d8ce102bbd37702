/-!
# Decimal digits

Reading and writing whole numbers in base ten with the digits `0` to `9`.
-/

namespace CaseSuite.Number

/-- One of the ten ASCII digits. -/
def isDigit (c : Char) : Bool := '0' ≤ c && c ≤ '9'

/-- The number that a digit stands for. -/
def digitValue (c : Char) : Nat := c.toNat - '0'.toNat

/-- The number that a run of digits stands for; no digits stand for zero. -/
def digitsValue (cs : List Char) : Nat :=
  cs.foldl (fun n c => 10 * n + digitValue c) 0

/-- The digits of a number without leading zeros. -/
def digitsOf (n : Nat) : List Char := Nat.toDigits 10 n

/-- How many digits a number has. -/
def digitCount (n : Nat) : Nat := (digitsOf n).length

/-- A sign, if there is one, and what follows it. -/
def readSign : List Char → Bool × List Char
  | '-' :: cs => (true, cs)
  | '+' :: cs => (false, cs)
  | cs => (false, cs)

/-- An optional sign and at least one digit, nothing else. -/
def readInt? (cs : List Char) : Option Int :=
  let (negative, digits) := readSign cs
  if digits.isEmpty || !digits.all isDigit then none
  else
    let n : Int := digitsValue digits
    some (if negative then -n else n)

/-- A signed 64-bit integer in decimal; a number out of range is refused. -/
def readInt64? (cs : List Char) : Option Int64 :=
  match readInt? cs with
  | none => none
  | some n => if -Int.pow 2 63 ≤ n ∧ n < Int.pow 2 63 then some (Int64.ofInt n) else none

/-- An integer in decimal. -/
def intText (n : Int) : String :=
  String.ofList (if n < 0 then '-' :: digitsOf n.natAbs else digitsOf n.natAbs)

end CaseSuite.Number
