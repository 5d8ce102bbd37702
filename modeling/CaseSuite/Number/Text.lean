import CaseSuite.Number.Shortest

/-!
# Doubles as text

A double is read from a sign, digits with an optional point and an optional power of ten, or from
one of the words for infinity and not a number. It is written with the fewest digits that read
back: positionally from `0.0001` up to `10^16`, and with an exponent outside.
-/

namespace CaseSuite

namespace Number

/-- The parts of a decimal literal. -/
structure Literal where
  whole : List Char
  part : List Char
  exponent : Int

/-- The power of ten after the mark `e`; nothing at all means none. -/
def readExponent? : List Char → Option Int
  | [] => some 0
  | c :: cs => if c = 'e' || c = 'E' then readInt? cs else none

/-- Digits with an optional point on either side and an optional exponent; one digit at least. -/
def readLiteral? (cs : List Char) : Option Literal :=
  let whole := cs.takeWhile isDigit
  let (part, rest) :=
    match cs.dropWhile isDigit with
    | '.' :: rest => (rest.takeWhile isDigit, rest.dropWhile isDigit)
    | rest => ([], rest)
  if whole.isEmpty && part.isEmpty then none
  else (readExponent? rest).map fun exponent => { whole, part, exponent }

/-- The words for infinity, in small letters. -/
def infinityWords : List String := ["inf", "infinity"]

/-- The word for not a number, in small letters. -/
def nanWord : String := "nan"

end Number

namespace Binary64

open Number

/--
The double nearest to a decimal. A decimal from `10^310` on is infinite and one below `10^-330` is
zero whatever its digits, so the powers of ten stay small.
-/
def ofDecimal (negative : Bool) (d : Decimal) : Binary64 :=
  if d.digits = 0 then zero negative
  else
    let top := d.exponent + digitCount d.digits
    if 310 < top then infinity negative
    else if top < -330 then zero negative
    else ofRatio negative (d.digits * Nat.pow 10 d.exponent.toNat) (Nat.pow 10 (-d.exponent).toNat)

/-- Read a double. -/
def read? (text : String) : Option Binary64 :=
  let (negative, cs) := readSign text.toList
  let word := String.ofList (cs.map Char.toLower)
  if word ∈ infinityWords then some (infinity negative)
  else if word = nanWord then some nan
  else (readLiteral? cs).map fun l =>
    ofDecimal negative ⟨digitsValue (l.whole ++ l.part), l.exponent - l.part.length⟩

/-- Digits with the point after the first `point` of them, and a digit on both sides of it. -/
def positional (digits : List Char) (point : Int) : List Char :=
  if point ≤ 0 then ['0', '.'] ++ List.replicate (-point).toNat '0' ++ digits
  else
    let n := point.toNat
    if digits.length ≤ n then digits ++ List.replicate (n - digits.length) '0' ++ ['.', '0']
    else digits.take n ++ '.' :: digits.drop n

/-- One digit, the others after a point, and the power of ten. -/
def scientific (digits : List Char) (point : Int) : List Char :=
  let tail := digits.drop 1
  digits.take 1 ++ (if tail.isEmpty then [] else '.' :: tail) ++
    'e' :: (intText (point - 1)).toList

/-- The point of a positional text stands after `-3` to `16` digits. -/
def isPositional (point : Int) : Bool := -3 ≤ point && point ≤ 16

/-- The digits of a finite double without its sign. -/
def magnitudeText (x : Binary64) : List Char :=
  if x.magnitude = 0 then ['0', '.', '0']
  else
    let d := Number.shortest x
    let digits := digitsOf d.digits
    let point := d.exponent + digits.length
    if isPositional point then positional digits point else scientific digits point

/-- Write a double. -/
def text (x : Binary64) : String :=
  if x.isNaN then "NaN"
  else
    let body := if x.isFinite then x.magnitudeText else ['i', 'n', 'f']
    String.ofList (if x.negative then '-' :: body else body)

end Binary64

end CaseSuite
