/-
# TreeSchema.Json.Numeral — numbers of a JSON text.

A numeral is kept as its digits: whether it denotes a number in range matters only to a reader that
looks at it.  An integer of at most sixty-four bits stays an integer.  Anything else is approximated:
as many leading digits as fit an unsigned word are taken, and the power of ten is applied to the
nearest number of those digits, in steps of at most `10 ^ 308`.
-/
import TreeSchema.Decimal.Written
import TreeSchema.Reading

namespace TreeSchema.Json

open Decimal

/-- A numeral: sign, digits before the point, digits after it, exponent. -/
structure Numeral where
  negative : Bool
  whole : List Nat
  /-- Absent if there is no point. -/
  fraction : Option (List Nat)
  /-- Sign and digits of the exponent, if there is one. -/
  exponent : Option (Bool × List Nat)
deriving DecidableEq

/-- The largest unsigned word. -/
def wordMax : Nat := pow2 64 - 1

/-- The digits that fit an unsigned word, and how many follow them. -/
def fitting : (taken : Nat) → List Nat → Nat × Nat
  | taken, [] => (taken, 0)
  | taken, d :: ds =>
    if taken * 10 + d ≤ wordMax then fitting (taken * 10 + d) ds else (taken, ds.length + 1)

/-- `10 ^ n` as a number, for `n ≤ 308`. -/
def power (n : Nat) : Binary64 := .ofNat (pow10 n)

/-- A number times `10 ^ e`, or nothing if that is out of range. -/
def scaled : (fuel : Nat) → Binary64 → Int → Option Binary64
  | 0, x, _ => some x
  | fuel + 1, x, e =>
    if e.natAbs ≤ 308 then
      if 0 ≤ e then
        let y := x.mul (power e.toNat)
        if y.isInfinite then none else some y
      else some (x.div (power e.natAbs))
    else if x.isZero then some x
    else if 0 ≤ e then none
    else scaled fuel (x.div (power 308)) (e + 308)

/-- The largest exponent that is formed; a longer one only says zero or out of range. -/
def exponentMax : Nat := pow2 31 - 1

/-- The value of digits. -/
def digitsValue (ds : List Nat) : Nat := ds.foldl (fun n d => n * 10 + d) 0

namespace Numeral

/-- The number that is not an integer of one word, or nothing if it is out of range. -/
def approximate (n : Numeral) : Option Binary64 :=
  let (leading, dropped) := fitting 0 n.whole
  let (significand, shift) :=
    match n.fraction with
    | none => (leading, (dropped : Int))
    | some ds =>
      let (all, ignored) := fitting leading ds
      (all, (dropped : Int) - ((ds.length - ignored : Nat) : Int))
  let magnitude :=
    match n.exponent with
    | none => scaled 8 (.ofNat significand) shift
    | some (down, ds) =>
      let e := digitsValue ds
      if exponentMax < e then
        if significand ≠ 0 ∧ !down then none else some (.signed false 0)
      else scaled 8 (.ofNat significand) (if down then shift - e else shift + e)
  magnitude.map fun x => if n.negative then x.neg else x

/-- How a numeral is called in a complaint; nothing if it is out of range. -/
def found? (n : Numeral) : Option Reading.Found :=
  let value := digitsValue n.whole
  let isWord :=
    n.fraction.isNone && n.exponent.isNone
      && if n.negative then value ≠ 0 && value ≤ pow2 63 else value ≤ wordMax
  if isWord then
    some (.integer ((if n.negative then "-" else "") ++ toString value))
  else n.approximate.map fun x => .number (x.written .json)

end Numeral

end TreeSchema.Json
