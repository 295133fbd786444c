/-
# TreeSchema.Yaml.Token.Property — anchors, tags and directives.
-/
import TreeSchema.Text.Glyph
import TreeSchema.Yaml.Token.Quoted
import TreeSchema.Yaml.Token

namespace TreeSchema.Yaml

/-! ## Anchors -/

/-- Whether an anchor or alias may end at a place. -/
def endsName : Option Char → Bool
  | some c => isGap (some c) || "?:,]\x7d%@\x60".toList.contains c
  | none => true

/-- The name after the mark of an anchor or alias. -/
def scanName (c : Cursor) : Option (String × Cursor) :=
  let (name, c) := (c.skip 1).span isWord
  if name.isEmpty || !endsName c.peek then none else some (String.ofList name, c)

/-! ## Tags -/

/-- A character of a tag that stands for itself. -/
def isTagChar (verbatim : Bool) (c : Char) : Bool :=
  isWord c || ";/?:@&=+$.!~*'()".toList.contains c || verbatim && ",[]".toList.contains c

/-- The byte of an escape at the front. -/
def tagEscape? (input : List Char) : Option UInt8 :=
  match input with
  | '%' :: a :: b :: _ => (Text.natural? 16 [a, b]).map UInt8.ofNat
  | _ => none

/-- How many bytes a character has that begins with a byte. -/
def encodedLength? (b : UInt8) : Option Nat :=
  if b < 0x80 then some 1
  else if 0xC0 ≤ b && b < 0xE0 then some 2
  else if 0xE0 ≤ b && b < 0xF0 then some 3
  else if 0xF0 ≤ b && b < 0xF8 then some 4
  else none

/-- As many bytes that go on with a character, each an escape. -/
def continuations : (n : Nat) → List Char → Option (List UInt8)
  | 0, _ => some []
  | n + 1, input => do
    let b ← tagEscape? input
    if 0x80 ≤ b && b < 0xC0 then
      let bs ← continuations n (input.drop 3)
      pure (b :: bs)
    else none

/-- The character that escapes spell, and how many there are.  What is no character counts as the
replacement character. -/
def tagEscapes? (input : List Char) : Option (Char × Nat) := do
  let b ← tagEscape? input
  let n ← encodedLength? b
  let bs ← continuations (n - 1) (input.drop 3)
  match Text.glyphsFrom 0 (b :: bs) with
  | [some c] => pure (c, n)
  | _ => pure ('\uFFFD', n)

/-- The characters of a tag and the place after them; nothing if an escape is none. -/
def scanTagChars (verbatim : Bool) : (fuel : Nat) → Cursor → Option (List Char × Cursor)
  | 0, c => some ([], c)
  | fuel + 1, c =>
    match c.peek with
    | none => some ([], c)
    | some x =>
      if x == '%' then
        match tagEscapes? c.rest with
        | none => none
        | some (y, n) =>
          (scanTagChars verbatim fuel (c.skip (3 * n))).map fun p => (y :: p.1, p.2)
      else if isTagChar verbatim x then
        (scanTagChars verbatim fuel (c.skip 1)).map fun p => (x :: p.1, p.2)
      else some ([], c)

/-- The handle at the front of a tag: marks around a word, or a mark with a word after it. -/
def scanHandle (c : Cursor) : Option (List Char × Cursor) :=
  if c.sees '!' then
    let (word, c) := (c.skip 1).span isWord
    if c.sees '!' then some ('!' :: word ++ ['!'], c.skip 1) else some ('!' :: word, c)
  else none

/-- Whether a handle is closed by a mark of its own. -/
def isClosedHandle (handle : List Char) : Bool :=
  1 < handle.length && handle.getLast? == some '!'

/-- A tag between angle brackets. -/
def scanVerbatimTag (c : Cursor) : Option (Token × Cursor) := do
  let (chars, c) ← scanTagChars true (c.rest.length + 1) (c.skip 2)
  if chars.isEmpty || !c.sees '>' then none
  else pure (.tag "" (String.ofList chars), c.skip 1)

/-- A tag with a handle.  The bare mark is a tag of its own. -/
def scanShortTag (c : Cursor) : Option (Token × Cursor) := do
  let (handle, c) ← scanHandle c
  let (chars, c) ← scanTagChars false (c.rest.length + 1) c
  if isClosedHandle handle then
    if chars.isEmpty then none
    else pure (.tag (String.ofList handle) (String.ofList chars), c)
  else
    let chars := handle.drop 1 ++ chars
    if chars.isEmpty then pure (.tag "" "!", c) else pure (.tag "!" (String.ofList chars), c)

/-- A tag, which white space must follow, or a comma inside flow collections. -/
def scanTag (flow : Bool) (c : Cursor) : Option (Token × Cursor) := do
  let (t, c) ← if c.peekAt 1 == some '<' then scanVerbatimTag c else scanShortTag c
  if isGap c.peek || flow && c.sees ',' then pure (t, c) else none

/-! ## Directives -/

/-- A number of at most nine digits. -/
def scanNumber (c : Cursor) : Option (Nat × Cursor) :=
  let (digits, c) := c.span Char.isDigit
  if digits.isEmpty || 9 < digits.length then none
  else some (digits.foldl (fun n d => n * 10 + (d.toNat - 48)) 0, c)

/-- The version that a directive asks for. -/
def scanVersion (c : Cursor) : Option (Token × Cursor) := do
  let (major, c) ← scanNumber (c.skipWhile isSpace)
  if c.sees '.' then
    let (minor, c) ← scanNumber (c.skip 1)
    pure (.versionDirective major minor, c)
  else none

/-- The handle that a directive gives a meaning to, and that meaning. -/
def scanExpansion (c : Cursor) : Option (Token × Cursor) := do
  let (handle, c) ← scanHandle (c.skipWhile isSpace)
  if handle != ['!'] && !isClosedHandle handle || !c.peek.any isSpace then none
  else
    let c := c.skipWhile isSpace
    let (chars, c) ← scanTagChars true (c.rest.length + 1) c
    if chars.isEmpty || !isGap c.peek then none
    else pure (.tagDirective (String.ofList handle) (String.ofList chars), c)

/-- A directive, which takes a whole line. -/
def scanDirective (c : Cursor) : Option (Token × Cursor) := do
  let (name, c) := (c.skip 1).span isWord
  if !isGap c.peek then none
  else
    let (t, c) ←
      if name == "YAML".toList then scanVersion c
      else if name == "TAG".toList then scanExpansion c
      else none
    let c ← c.endOfLine?
    pure (t, c)

end TreeSchema.Yaml
