/-
# TreeSchema.Text.Hex — numbers as digits.

Digits run from `0` to `9` and on from `a` to `f`.  Writing has a fixed number of digits; reading takes
either case.
-/

namespace TreeSchema.Text

/-- A digit in lower case. -/
def hexDigit (n : Nat) : Char :=
  if n < 10 then Char.ofNat (48 + n) else Char.ofNat (87 + n)

/-- A digit in upper case. -/
def hexDigitUpper (n : Nat) : Char :=
  if n < 10 then Char.ofNat (48 + n) else Char.ofNat (55 + n)

/-- The last `n` digits of a number, in the case that `digit` has. -/
def hexDigits (digit : Nat → Char) : (n : Nat) → (k : Nat) → List Char
  | 0, _ => []
  | n + 1, k => hexDigits digit n (k / 16) ++ [digit (k % 16)]

@[simp] theorem length_hexDigits (digit : Nat → Char) (n k : Nat) :
    (hexDigits digit n k).length = n := by
  induction n generalizing k with
  | zero => rfl
  | succ n ih => simp [hexDigits, ih]

/-- The value of a digit below a base of at most sixteen. -/
def digitValue? (base : Nat) (c : Char) : Option Nat :=
  let n := c.toNat
  let value? : Option Nat :=
    if 48 ≤ n ∧ n ≤ 57 then some (n - 48)
    else if 97 ≤ n ∧ n ≤ 102 then some (n - 87)
    else if 65 ≤ n ∧ n ≤ 70 then some (n - 55)
    else none
  value?.filter fun d => d < base

/-- A digit of either case has the value that it was written for. -/
theorem digitValue?_hexDigit {n : Nat} (h : n < 16) :
    digitValue? 16 (hexDigit n) = some n ∧ digitValue? 16 (hexDigitUpper n) = some n := by
  have all : ∀ k : Fin 16,
      digitValue? 16 (hexDigit k) = some k.val ∧ digitValue? 16 (hexDigitUpper k) = some k.val := by
    decide
  exact all ⟨n, h⟩

/-- The value of at least one digit in a base. -/
def natural? (base : Nat) (cs : List Char) : Option Nat :=
  if cs.isEmpty then none
  else
    cs.foldl
      (fun acc c => do
        let n ← acc
        let d ← digitValue? base c
        pure (n * base + d))
      (some 0)

end TreeSchema.Text
