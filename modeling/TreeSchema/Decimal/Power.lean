/-
# TreeSchema.Decimal.Power — powers of two and ten.

The scales that a double and a decimal are measured on.
-/

namespace TreeSchema.Decimal

/-- The power of two with exponent `n`: the weight of a binary digit. -/
def pow2 (n : Nat) : Nat := Nat.pow 2 n

/-- The power of ten with exponent `n`: the weight of a decimal digit. -/
def pow10 (n : Nat) : Nat := Nat.pow 10 n

end TreeSchema.Decimal
