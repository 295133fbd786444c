/-
# TreeSchema.Decimal.Written — the text of a number.

One layout serves three uses that differ in two decisions only: how a tie between two shortest
decimals is broken, and which exponents are written out positionally.
-/
import TreeSchema.Decimal.Shortest

namespace TreeSchema.Decimal

/-- The decisions in which the written forms differ. -/
structure Style where
  tie : Tie
  /-- Whether a number whose first digit stands for `10 ^ e` is written without an exponent. -/
  positional : Int → Bool

/-- Numbers in the rendering of a value: positional from `0.0001` to below `10 ^ 16`. -/
def Style.value : Style := ⟨.up, fun e => -4 ≤ e && e < 16⟩

/-- Numbers in complaints about a JSON text: positional from `0.00001` to below `10 ^ 16`. -/
def Style.json : Style := ⟨.even, fun e => -5 ≤ e && e < 16⟩

/-- Numbers in complaints about a YAML text: never with an exponent. -/
def Style.full : Style := ⟨.up, fun _ => true⟩

private def zeros (n : Nat) : String := String.ofList (List.replicate n '0')

/-- Digits written out in full, with at least one digit after the point. -/
def Digits.positional (d : Digits) : String :=
  let text := toString d.digits
  let count : Int := text.length
  if 0 ≤ d.exponent then text ++ zeros d.exponent.toNat ++ ".0"
  else
    let place := count + d.exponent
    if 0 < place then
      let chars := text.toList
      String.ofList (chars.take place.toNat) ++ "." ++ String.ofList (chars.drop place.toNat)
    else "0." ++ zeros (-place).toNat ++ text

/-- Digits with an exponent: one digit before the point, and no point if there are no more. -/
def Digits.scientific (d : Digits) : String :=
  let chars := (toString d.digits).toList
  let exponent := d.exponent + (chars.length : Int) - 1
  let rest := chars.drop 1
  String.ofList (chars.take 1) ++ (if rest.isEmpty then "" else "." ++ String.ofList rest)
    ++ "e" ++ toString exponent

/-- The text of a number in a style. -/
def Binary64.written (x : Binary64) (style : Style) : String :=
  if x.isNaN then "NaN"
  else
    let sign := if x.negative then "-" else ""
    if x.isInfinite then sign ++ "inf"
    else if x.isZero then sign ++ "0.0"
    else
      let d := x.shortest style.tie
      let first := d.exponent + ((toString d.digits).length : Int) - 1
      sign ++ (if style.positional first then d.positional else d.scientific)

end TreeSchema.Decimal
