/-
# TreeSchema.Decimal.Binary64 — double-precision numbers as their sixty-four bits.

A number is kept as the bits of its IEEE 754 form, so that a copy is exact and the sign of zero and
the payload of a NaN survive.  Every finite number is `significand * 2 ^ scale / 2 ^ 1074`; rounding a
quotient of natural numbers to the nearest number, ties to even, is the one arithmetic primitive.
-/
import TreeSchema.Decimal.Power

namespace TreeSchema.Decimal

/-- A double-precision number, told apart by its bits. -/
structure Binary64 where
  bits : UInt64
deriving DecidableEq, Inhabited

namespace Binary64

/-- The sign bit. -/
def negative (x : Binary64) : Bool := pow2 63 ≤ x.bits.toNat

/-- The eleven bits of the biased exponent. -/
def exponentField (x : Binary64) : Nat := x.bits.toNat / pow2 52 % pow2 11

/-- The fifty-two bits of the fraction. -/
def fraction (x : Binary64) : Nat := x.bits.toNat % pow2 52

/-- Not a number. -/
def isNaN (x : Binary64) : Bool := x.exponentField == 2047 && x.fraction != 0

/-- One of the two infinities. -/
def isInfinite (x : Binary64) : Bool := x.exponentField == 2047 && x.fraction == 0

/-- One of the two zeros. -/
def isZero (x : Binary64) : Bool := x.exponentField == 0 && x.fraction == 0

/-- The integer significand of a finite number. -/
def significand (x : Binary64) : Nat :=
  if x.exponentField = 0 then x.fraction else pow2 52 + x.fraction

/-- The binary exponent of a finite number, counted from the least one. -/
def scale (x : Binary64) : Nat := x.exponentField - 1

/-- Equality of the numbers denoted: the zeros are equal and NaN equals nothing. -/
def equals (x y : Binary64) : Bool :=
  !x.isNaN && !y.isNaN && (x.bits == y.bits || x.isZero && y.isZero)

/-! ## Rounding -/

/-- The quotient rounded to the nearest natural number, a half going to the even neighbour. -/
def roundHalfEven (num den : Nat) : Nat :=
  let q := num / den
  let r := num % den
  if 2 * r < den then q
  else if den < 2 * r then q + 1
  else if q % 2 = 0 then q
  else q + 1

/-- The number with the given sign and the bits of a magnitude. -/
def signed (negative : Bool) (magnitude : Nat) : Binary64 :=
  ⟨UInt64.ofNat ((if negative then pow2 63 else 0) + magnitude)⟩

/-- Infinity, positive or negative. -/
def infinity (negative : Bool) : Binary64 := signed negative (2047 * pow2 52)

/-- The quiet NaN. -/
def nan : Binary64 := signed false (2047 * pow2 52 + pow2 51)

/-- The number nearest to `num / den`; what is too large becomes infinite.

Counted in units of `2 ^ -1074` the bits of a magnitude are `scale * 2 ^ 52 + significand`, and a
significand that rounds up to `2 ^ 53` carries into the exponent by that very sum. -/
def ofRatio (negative : Bool) (num den : Nat) : Binary64 :=
  let units := num * pow2 1074
  let scale := (units / den).log2 - 52
  let magnitude := scale * pow2 52 + roundHalfEven units (den * pow2 scale)
  if 2047 * pow2 52 ≤ magnitude then infinity negative else signed negative magnitude

/-- The number nearest to a natural number. -/
def ofNat (n : Nat) : Binary64 := ofRatio false n 1

/-- The number nearest to `digits * 10 ^ exponent`.

Exponents that can only give zero or infinity are answered without forming the power. -/
def ofDecimal (negative : Bool) (digits : Nat) (exponent : Int) : Binary64 :=
  if digits = 0 then signed negative 0
  else
    let top : Int := (Nat.toDigits 10 digits).length + exponent
    if 400 < top then infinity negative
    else if top < -400 then signed negative 0
    else ofRatio negative (digits * pow10 exponent.toNat) (pow10 (-exponent).toNat)

/-- The product of two finite numbers, rounded. -/
def mul (x y : Binary64) : Binary64 :=
  ofRatio (x.negative != y.negative)
    (x.significand * pow2 x.scale * (y.significand * pow2 y.scale)) (pow2 2148)

/-- The quotient of two finite numbers, rounded; the divisor is not zero. -/
def div (x y : Binary64) : Binary64 :=
  ofRatio (x.negative != y.negative)
    (x.significand * pow2 x.scale) (y.significand * pow2 y.scale)

/-- The same magnitude with the sign turned. -/
def neg (x : Binary64) : Binary64 :=
  ⟨x.bits ^^^ 0x8000000000000000⟩

end Binary64

end TreeSchema.Decimal
