/-
# TreeSchema.Decimal.Shortest — the fewest decimal digits that read back.

The reals that round to a given number form an interval; its ends belong to it exactly when the
significand is even.  For one digit, two digits, and so on, the two neighbours of the number on that
decimal grid are tested against the interval in exact arithmetic.  The first grid with a hit wins,
and of two hits the nearer; where both are equally near, the caller decides.
-/
import TreeSchema.Decimal.Binary64

namespace TreeSchema.Decimal

/-- Which of two equally near neighbours is taken. -/
inductive Tie where
  /-- The larger one. -/
  | up
  /-- The one with an even last digit. -/
  | even
deriving DecidableEq

/-- A decimal `digits * 10 ^ exponent`. -/
structure Digits where
  digits : Nat
  exponent : Int
deriving DecidableEq

/-- The digits without trailing zeros. -/
def Digits.trim : (fuel : Nat) → Digits → Digits
  | 0, d => d
  | fuel + 1, d =>
    if d.digits % 10 = 0 ∧ d.digits ≠ 0 then trim fuel ⟨d.digits / 10, d.exponent + 1⟩ else d

/-- An interval of positive rationals around a value, over one common denominator. -/
structure Interval where
  value : Nat
  low : Nat
  high : Nat
  den : Nat
  /-- Whether the ends belong to the interval. -/
  closed : Bool

/-- The interval of reals that round to a finite positive number.

Below a power of two the neighbours are twice as close, so the lower half of the gap is halved
there, except at the least exponent, where the spacing does not change. -/
def Binary64.interval (x : Binary64) : Interval :=
  let unit := pow2 x.scale
  let value := 4 * x.significand * unit
  let below := if x.significand = pow2 52 ∧ 0 < x.scale then unit else 2 * unit
  { value, low := value - below, high := value + 2 * unit, den := pow2 1076
    closed := x.significand % 2 == 0 }

namespace Interval

/-- Whether `n / 1` lies in the interval once it has been put on a grid of unit steps. -/
def contains (i : Interval) (n : Nat) : Bool :=
  if i.closed then i.low ≤ n * i.den && n * i.den ≤ i.high
  else i.low < n * i.den && n * i.den < i.high

/-- The interval measured in steps of `10 ^ k`. -/
def onGrid (i : Interval) (k : Int) : Interval :=
  let up := pow10 (-k).toNat
  { i with value := i.value * up, low := i.low * up, high := i.high * up
           den := i.den * pow10 k.toNat }

/-- How many zeros follow the point before the first digit of `num / den`, which is below one. -/
def leadingZeros : (fuel : Nat) → (num den : Nat) → Nat
  | 0, _, _ => 0
  | fuel + 1, num, den => if den ≤ num * 10 then 0 else 1 + leadingZeros fuel (num * 10) den

/-- The exponent `e` with `10 ^ (e - 1) ≤ value < 10 ^ e`. -/
def pointPlace (i : Interval) : Int :=
  if i.den ≤ i.value then ((Nat.toDigits 10 (i.value / i.den)).length : Int)
  else -((leadingZeros 400 i.value i.den : Nat) : Int)

/-- The neighbour of the value on the unit grid that lies in the interval, the nearer of two. -/
def nearest? (i : Interval) (tie : Tie) : Option Nat :=
  let f := i.value / i.den
  match i.contains f, i.contains (f + 1) with
  | true, false => some f
  | false, true => some (f + 1)
  | false, false => none
  | true, true =>
    let r := 2 * (i.value % i.den)
    if r < i.den then some f
    else if i.den < r then some (f + 1)
    else match tie with
      | .up => some (f + 1)
      | .even => some (if f % 2 = 0 then f else f + 1)

/-- The first grid, from `n` digits on, that has a point of the interval. -/
def search (i : Interval) (tie : Tie) (place : Int) : (fuel : Nat) → (n : Nat) → Digits
  | 0, _ => ⟨0, 0⟩
  | fuel + 1, n =>
    let k := place - n
    match (i.onGrid k).nearest? tie with
    | some d => Digits.trim 20 ⟨d, k⟩
    | none => search i tie place fuel (n + 1)

end Interval

/-- The shortest decimal that reads back as a finite positive number, nearest among the shortest.
Seventeen digits always suffice. -/
def Binary64.shortest (x : Binary64) (tie : Tie) : Digits :=
  let i := x.interval
  i.search tie i.pointPlace 18 1

end TreeSchema.Decimal
