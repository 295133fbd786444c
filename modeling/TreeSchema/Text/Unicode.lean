/-
# TreeSchema.Text.Unicode — text behind a byte order mark.

A byte order mark at the front says which encoding bytes are in.  Without one they are UTF-8.
-/

namespace TreeSchema.Text

/-- The byte order mark. -/
def orderMark : Char := '\uFEFF'

/-- Text without a byte order mark at its front. -/
def withoutMark : List Char → List Char
  | c :: rest => if c = orderMark then rest else c :: rest
  | [] => []

/-! ## Sixteen-bit words -/

/-- The first half of a character beyond sixteen bits. -/
def isHighHalf (n : Nat) : Bool := 0xD800 ≤ n && n < 0xDC00

/-- The second half of a character beyond sixteen bits. -/
def isLowHalf (n : Nat) : Bool := 0xDC00 ≤ n && n < 0xE000

/-- The character of two halves. -/
def ofHalves (high low : Nat) : Char :=
  Char.ofNat (0x10000 + (high - 0xD800) * 0x400 + (low - 0xDC00))

/-- The sixteen-bit words of bytes in pairs; a byte left over is an error. -/
def pairs? (lowFirst : Bool) : List UInt8 → Option (List Nat)
  | [] => some []
  | [_] => none
  | a :: b :: rest =>
    let n := if lowFirst then b.toNat * 256 + a.toNat else a.toNat * 256 + b.toNat
    (pairs? lowFirst rest).map (n :: ·)

/-- The characters of sixteen-bit words.  A half of a character needs the other half beside it. -/
def joinWords? : List Nat → Option (List Char)
  | [] => some []
  | n :: rest =>
    if isLowHalf n then none
    else if isHighHalf n then
      match rest with
      | k :: rest => if isLowHalf k then (joinWords? rest).map (ofHalves n k :: ·) else none
      | [] => none
    else (joinWords? rest).map (Char.ofNat n :: ·)

/-- The text of bytes without its byte order mark. -/
def decode? (data : ByteArray) : Option (List Char) :=
  match data.toList with
  | 0xFF :: 0xFE :: rest => (pairs? true rest).bind joinWords?
  | 0xFE :: 0xFF :: rest => (pairs? false rest).bind joinWords?
  | _ => (String.fromUTF8? data).map fun text => withoutMark text.toList

end TreeSchema.Text
