/-
# TreeSchema.Text.Glyph — bytes as characters, some of them unreadable.

Bytes that are UTF-8 are just text.  Where they are not, the readable characters are kept and each
byte that belongs to none is a gap, so that a reader which never looks there can go on.
-/

namespace TreeSchema.Text

/-- A character, or a byte that is part of none. -/
abbrev Glyph := Option Char

/-- The six bits of a continuation byte. -/
def continuation? (b : UInt8) : Option Nat :=
  if 0x80 ≤ b && b < 0xC0 then some (b.toNat - 0x80) else none

/-- The character of a code point spelt with at least as many bits as it needs. -/
def scalar? (least n : Nat) : Option Char :=
  if least ≤ n && (n < 0xD800 || 0xDFFF < n) && n ≤ 0x10FFFF then some (Char.ofNat n) else none

/-- The character that two bytes spell. -/
def pair? (a b : UInt8) : Option Char := do
  let y ← continuation? b
  if 0xC0 ≤ a && a < 0xE0 then scalar? 0x80 ((a.toNat - 0xC0) * 64 + y) else none

/-- The character that three bytes spell. -/
def triple? (a b c : UInt8) : Option Char := do
  let y ← continuation? b
  let z ← continuation? c
  if 0xE0 ≤ a && a < 0xF0 then scalar? 0x800 (((a.toNat - 0xE0) * 64 + y) * 64 + z) else none

/-- The character that four bytes spell. -/
def quadruple? (a b c d : UInt8) : Option Char := do
  let y ← continuation? b
  let z ← continuation? c
  let w ← continuation? d
  if 0xF0 ≤ a && a < 0xF8 then
    scalar? 0x10000 ((((a.toNat - 0xF0) * 64 + y) * 64 + z) * 64 + w)
  else none

/-- Readable characters and gaps; `skip` bytes at the front belong to the character before. -/
def glyphsFrom : (skip : Nat) → List UInt8 → List Glyph
  | _, [] => []
  | skip + 1, _ :: rest => glyphsFrom skip rest
  | 0, a :: rest =>
    if a < 0x80 then some (Char.ofNat a.toNat) :: glyphsFrom 0 rest
    else
      match rest with
      | b :: c :: d :: _ =>
        match pair? a b, triple? a b c, quadruple? a b c d with
        | some x, _, _ => some x :: glyphsFrom 1 rest
        | _, some x, _ => some x :: glyphsFrom 2 rest
        | _, _, some x => some x :: glyphsFrom 3 rest
        | _, _, _ => none :: glyphsFrom 0 rest
      | [b, c] =>
        match pair? a b, triple? a b c with
        | some x, _ => some x :: glyphsFrom 1 rest
        | _, some x => some x :: glyphsFrom 2 rest
        | _, _ => none :: glyphsFrom 0 rest
      | [b] =>
        match pair? a b with
        | some x => some x :: glyphsFrom 1 rest
        | none => none :: glyphsFrom 0 rest
      | [] => [none]

/-- The glyphs of a text. -/
def glyphs (text : String) : List Glyph := text.toList.map some

/-- The glyphs of bytes. -/
def glyphsOfBytes (data : ByteArray) : List Glyph :=
  match String.fromUTF8? data with
  | some text => glyphs text
  | none => glyphsFrom 0 data.toList

end TreeSchema.Text
