/-!
# Double precision numbers

A double is kept as its word of 64 bits. A finite one denotes a whole number of units of `2^-1074`,
so two doubles, or a double and an integer, are compared exactly as integers.
-/

namespace CaseSuite

/-- An IEEE binary64 number, by its bits. -/
structure Binary64 where
  bits : UInt64
  deriving DecidableEq, Repr, Inhabited

namespace Binary64

/-- The word of bits as a number. -/
def word (x : Binary64) : Nat := x.bits.toNat

/-- The sign bit. -/
def negative (x : Binary64) : Bool := Nat.pow 2 63 ≤ x.word

/-- The eleven bits of the biased exponent. -/
def exponentField (x : Binary64) : Nat := x.word / Nat.pow 2 52 % Nat.pow 2 11

/-- The lowest fifty-two bits. -/
def fraction (x : Binary64) : Nat := x.word % Nat.pow 2 52

/-- Neither infinite nor a NaN. -/
def isFinite (x : Binary64) : Bool := x.exponentField != 2047

/-- Not a number. -/
def isNaN (x : Binary64) : Bool := x.exponentField == 2047 && x.fraction != 0

/-- The integer that is scaled by a power of two; below `2^53`. -/
def significand (x : Binary64) : Nat :=
  if x.exponentField = 0 then x.fraction else x.fraction + Nat.pow 2 52

/-- The significand counts units of `2^(shift - 1074)`. -/
def shift (x : Binary64) : Nat := x.exponentField - 1

/-- The absolute value of a finite double, in units of `2^-1074`. -/
def magnitude (x : Binary64) : Nat := x.significand * Nat.pow 2 x.shift

/-- The value of a finite double, in units of `2^-1074`. -/
def scaled (x : Binary64) : Int :=
  if x.negative then -(x.magnitude : Int) else x.magnitude

/-- How many units of `2^-1074` make one. -/
def one : Nat := Nat.pow 2 1074

/-- Equality of numbers: a NaN equals nothing and the two zeros are equal. -/
def equal (x y : Binary64) : Bool :=
  !x.isNaN && !y.isNaN && (x.bits == y.bits || x.magnitude == 0 && y.magnitude == 0)

/-- The infinity or the zero of a sign, or any double below them, by its unsigned word. -/
def ofWord (negative : Bool) (w : Nat) : Binary64 :=
  ⟨UInt64.ofNat (if negative then Nat.pow 2 63 + w else w)⟩

/-- The unsigned word of infinity. -/
def infinityWord : Nat := 2047 * Nat.pow 2 52

/-- The zero of a sign. -/
def zero (negative : Bool) : Binary64 := ofWord negative 0

/-- The infinity of a sign. -/
def infinity (negative : Bool) : Binary64 := ofWord negative infinityWord

/-- The NaN that reading yields. -/
def nan : Binary64 := ofWord false (infinityWord + Nat.pow 2 51)

/-! ## Comparing with integers -/

/-- Order of numbers: a NaN is neither below nor above anything. -/
def atMost (x y : Binary64) : Bool :=
  !x.isNaN && !y.isNaN && x.scaled ≤ y.scaled

/-- Strict order of numbers. -/
def below (x y : Binary64) : Bool :=
  !x.isNaN && !y.isNaN && x.scaled < y.scaled

/-- Nothing is left behind the point; an infinity and a NaN have no such part. -/
def isWhole (x : Binary64) : Bool :=
  x.isFinite && x.magnitude % one == 0

/-- The integer towards zero. -/
def truncate (x : Binary64) : Int :=
  let n : Int := (x.magnitude / one : Nat)
  if x.negative then -n else n

/--
The integer towards zero as one of 64 bits; what lies beyond their range goes to its nearer end, and
a NaN to zero.
-/
def toInt64 (x : Binary64) : Int64 :=
  if x.isNaN then 0
  else Int64.ofInt (max (-Int.pow 2 63) (min (Int.pow 2 63 - 1) x.truncate))

/-- The double `2^63` of a sign: the positive one is the first past the integers of 64 bits. -/
def limit (negative : Bool) : Binary64 := ofWord negative (1086 * Nat.pow 2 52)

/-- A double equals an integer if it is whole, in range and converted to it; no integer is rounded. -/
def equalsInt (x : Binary64) (n : Int64) : Bool :=
  x.isWhole && ((limit true).atMost x && x.below (limit false)) && x.toInt64 == n

/-! ## Rounding -/

/-- The nearest integer to a quotient; a half goes to the even neighbour. -/
def divToEven (n d : Nat) : Nat :=
  let q := n / d
  let r := n % d
  if 2 * r < d then q
  else if d < 2 * r then q + 1
  else if q % 2 = 0 then q
  else q + 1

/--
The double nearest to `± n / d`, a tie going to the even significand; from half a unit above the
largest double on it is infinite. A significand of `2^53` carries into the exponent by itself.
-/
def ofRatio (negative : Bool) (n d : Nat) : Binary64 :=
  let n := n * one
  let shift := Nat.log2 (n / d) - 52
  let w := shift * Nat.pow 2 52 + divToEven n (d * Nat.pow 2 shift)
  if infinityWord ≤ w then infinity negative else ofWord negative w

/-- The rounded sum of two finite doubles that are not negative. -/
def add (x y : Binary64) : Binary64 :=
  ofRatio false (x.magnitude + y.magnitude) one

/-- The rounded quotient of a finite double that is not negative and a positive number. -/
def divNat (x : Binary64) (d : Nat) : Binary64 :=
  ofRatio false x.magnitude (d * one)

end Binary64

end CaseSuite
