import CaseSuite.Number.Binary64
import CaseSuite.Number.Digits

/-!
# Shortest decimals

The decimal with the fewest digits among those that lie in the rounding interval of a positive
double, and the nearest to it among those. On each decimal grid, from coarse to fine, only the two
neighbours of the double are tried: if any point of the grid lies in the interval, one of them does.
-/

namespace CaseSuite.Number

/-- A positive decimal, a whole number times a power of ten. -/
structure Decimal where
  digits : Nat
  exponent : Int
  deriving DecidableEq, Repr

/-- Where the doubles next to a given one leave it room, in quarters of `2^-1074`. -/
structure Interval where
  value : Nat
  lower : Nat
  upper : Nat
  /-- The ends round to the double too. -/
  closed : Bool

namespace Interval

/-- How many quarters of `2^-1074` make one. -/
def one : Nat := 4 * Binary64.one

/-- The reals that round to a double; below a power of two the room is half as wide. -/
def ofBinary64 (x : Binary64) : Interval :=
  let unit := Nat.pow 2 x.shift
  let value := 4 * x.magnitude
  let below := if x.significand = Nat.pow 2 52 && 0 < x.shift then unit else 2 * unit
  { value, lower := value - below, upper := value + 2 * unit, closed := x.significand % 2 == 0 }

/-- A multiple of one, given as a quotient, lies inside. -/
def holds (i : Interval) (n d : Nat) : Bool :=
  let v := n * one
  if i.closed then i.lower * d ≤ v && v ≤ i.upper * d
  else i.lower * d < v && v < i.upper * d

/-- The exponent of the leading decimal digit of the value. -/
def leading (i : Interval) : Int :=
  if one ≤ i.value then (digitCount (i.value / one) : Int) - 1
  else -(digitCount ((one + i.value - 1) / i.value - 1) : Int)

/--
The neighbour of the value on the grid of multiples of `10^e` that lies inside; of two the nearer,
and of two that are equally near the larger.
-/
def onGrid? (i : Interval) (e : Int) : Option Decimal :=
  let n := Nat.pow 10 e.toNat
  let d := Nat.pow 10 (-e).toNat
  let below := i.value * d / (one * n)
  let rest := i.value * d - below * (one * n)
  let low := holds i (below * n) d
  let high := holds i ((below + 1) * n) d
  if high && (!low || one * n ≤ 2 * rest) then some ⟨below + 1, e⟩
  else if low then some ⟨below, e⟩
  else none

/-- The first hit from the grid above the leading digit down to seventeen digits. -/
def shortest (i : Interval) : Decimal :=
  let top := i.leading + 1
  ((List.range 18).findSome? fun (k : Nat) => i.onGrid? (top - k)).getD ⟨0, 0⟩

end Interval

/-- The shortest decimal that reads back as a positive finite double. -/
def shortest (x : Binary64) : Decimal :=
  (Interval.ofBinary64 x).shortest

end CaseSuite.Number
