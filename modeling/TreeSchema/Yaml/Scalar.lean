/-
# TreeSchema.Yaml.Scalar — what a plain scalar denotes.

A scalar without quotes and without a tag may be nothing, a boolean or a number; what is none of
these is text.  Digits with a zero in front are text too.
-/
import TreeSchema.Decimal.Written
import TreeSchema.Reading
import TreeSchema.Text.Hex

namespace TreeSchema.Yaml

open Decimal (Binary64 pow2)
open Reading (Found)
open Text (natural?)

/-! ## Words -/

/-- The words for the absence of a value. -/
def isNullWord (text : String) : Bool := ["~", "null", "Null", "NULL"].contains text

/-- The boolean that a word stands for. -/
def flag? (text : String) : Option Bool :=
  if ["true", "True", "TRUE"].contains text then some true
  else if ["false", "False", "FALSE"].contains text then some false
  else none

/-! ## Integers -/

/-- Whether digits, perhaps after a sign, have a zero in front. -/
def isPadded : List Char → Bool
  | '-' :: '0' :: c :: cs | '+' :: '0' :: c :: cs | '0' :: c :: cs => (c :: cs).all Char.isDigit
  | _ => false

/-- The value of digits without a sign, in the base that they begin with. -/
def magnitude? (cs : List Char) : Option Nat :=
  match cs with
  | '0' :: 'x' :: ds => natural? 16 ds
  | '0' :: 'o' :: ds => natural? 8 ds
  | '0' :: 'b' :: ds => natural? 2 ds
  | ds => if isPadded ds then none else natural? 10 ds

/-- The integer that a scalar denotes.  Up to sixty-four bits it is an ordinary integer, up to one
hundred and twenty-eight a wide one, and beyond that none. -/
def integer? (text : String) : Option Found :=
  let (negative, cs) :=
    match text.toList with
    | '+' :: cs => (false, cs)
    | '-' :: cs => (true, cs)
    | cs => (false, cs)
  match magnitude? cs with
  | none => none
  | some n =>
    let digits := (if negative && n != 0 then "-" else "") ++ toString n
    let limit (bits : Nat) : Nat := if negative then pow2 (bits - 1) else pow2 bits - 1
    if n ≤ limit 64 then some (.integer digits)
    else if n ≤ limit 128 then some (.wide digits negative)
    else none

/-! ## Other numbers -/

/-- The exponent of a number, if there is one. -/
def exponent? : List Char → Option Int
  | [] => some 0
  | 'e' :: cs | 'E' :: cs =>
    match cs with
    | '-' :: ds => (natural? 10 ds).map fun n => -(n : Int)
    | '+' :: ds => (natural? 10 ds).map Int.ofNat
    | ds => (natural? 10 ds).map Int.ofNat
  | _ => none

/-- The number that digits with a point or an exponent denote; a digit must stand on one side of the
point. -/
def decimal? (negative : Bool) (cs : List Char) : Option Binary64 :=
  let whole := cs.takeWhile Char.isDigit
  let rest := cs.drop whole.length
  let (places, rest) :=
    match rest with
    | '.' :: rest =>
      let places := rest.takeWhile Char.isDigit
      (places, rest.drop places.length)
    | rest => ([], rest)
  match natural? 10 (whole ++ places), exponent? rest with
  | some n, some e => some (.ofDecimal negative n (e - (places.length : Int)))
  | _, _ => none

/-- The number that a scalar denotes.  One that is too large for a finite number is none. -/
def number? (text : String) : Option Binary64 :=
  if [".inf", ".Inf", ".INF", "+.inf", "+.Inf", "+.INF"].contains text then some (.infinity false)
  else if ["-.inf", "-.Inf", "-.INF"].contains text then some (.infinity true)
  else if [".nan", ".NaN", ".NAN"].contains text then some .nan
  else
    let number :=
      match text.toList with
      | '+' :: cs => decimal? false cs
      | '-' :: cs => decimal? true cs
      | cs => decimal? false cs
    number.filter fun x => !x.isInfinite

/-! ## All of them -/

/-- A number as a complaint calls it. -/
def foundNumber (x : Binary64) : Found := .number (x.written .full)

/-- What a plain scalar denotes. -/
def found (text : String) : Found :=
  if text.isEmpty || isNullWord text then .nothing
  else
    match flag? text, integer? text with
    | some b, _ => .flag b
    | none, some n => n
    | none, none =>
      if isPadded text.toList then .text text
      else
        match number? text with
        | some x => foundNumber x
        | none => .text text

end TreeSchema.Yaml
