/-
# TreeSchema.Json.Token — the marks and literals of a JSON text.

Scanning ends at the first place where no token can be read; what comes before it is kept.
-/
import TreeSchema.Json.Numeral
import TreeSchema.Text.Glyph
import TreeSchema.Text.Hex
import TreeSchema.Text.Unicode

namespace TreeSchema.Json

open Text (Glyph isHighHalf isLowHalf ofHalves)

/-- A mark or literal. -/
inductive Token where
  | braceOpen
  | braceClose
  | bracketOpen
  | bracketClose
  | comma
  | colon
  | null
  | flag (b : Bool)
  | number (n : Numeral)
  /-- A string; it may be well-formed and yet denote no text. -/
  | string (content : Option String)
  /-- No token starts here. -/
  | bad

/-! ## Strings -/

/-- The character after a backslash, for the escapes of two characters. -/
def simpleEscape? (c : Char) : Option Char :=
  if c = '\x22' ∨ c = '\\' ∨ c = '/' then some c
  else if c = 'b' then some '\x08'
  else if c = 'f' then some '\x0c'
  else if c = 'n' then some '\n'
  else if c = 'r' then some '\r'
  else if c = 't' then some '\t'
  else none

/-- A unit of a string on the way to its text. -/
inductive Piece where
  | char (c : Char)
  /-- A sixteen-bit word written as an escape. -/
  | word (n : Nat)
  /-- A byte that is part of no character. -/
  | gap

/-- The pieces up to the closing quote and what follows it. -/
def scanString : List Glyph → Option (List Piece × List Glyph)
  | some '\x22' :: rest => some ([], rest)
  | some '\\' :: some 'u' :: some a :: some b :: some c :: some d :: rest =>
    match Text.natural? 16 [a, b, c, d] with
    | some n => (scanString rest).map fun p => (.word n :: p.1, p.2)
    | none => none
  | some '\\' :: some e :: rest =>
    match simpleEscape? e with
    | some c => (scanString rest).map fun p => (.char c :: p.1, p.2)
    | none => none
  | some c :: rest =>
    if c = '\\' ∨ c.toNat < 0x20 then none
    else (scanString rest).map fun p => (.char c :: p.1, p.2)
  | none :: rest => (scanString rest).map fun p => (.gap :: p.1, p.2)
  | [] => none

/-- The text of pieces.  A word that is half a character needs the other half beside it. -/
def joinPieces : List Piece → Option (List Char)
  | [] => some []
  | .char c :: rest => (joinPieces rest).map (c :: ·)
  | .gap :: _ => none
  | [.word n] => if isHighHalf n || isLowHalf n then none else some [Char.ofNat n]
  | .word n :: .word k :: rest =>
    if isHighHalf n then
      if isLowHalf k then (joinPieces rest).map (ofHalves n k :: ·) else none
    else if isLowHalf n then none
    else (joinPieces (.word k :: rest)).map (Char.ofNat n :: ·)
  | .word n :: p :: rest =>
    if isHighHalf n || isLowHalf n then none
    else (joinPieces (p :: rest)).map (Char.ofNat n :: ·)

/-! ## Numbers -/

/-- The value of a decimal digit. -/
def digit? (c : Char) : Option Nat := if c.isDigit then some (c.toNat - 48) else none

/-- The digits at the front and what follows them. -/
def scanDigits : List Glyph → List Nat × List Glyph
  | some c :: rest =>
    match digit? c with
    | some d =>
      let (ds, after) := scanDigits rest
      (d :: ds, after)
    | none => ([], some c :: rest)
  | rest => ([], rest)

/-- At least one digit. -/
def scanSomeDigits (input : List Glyph) : Option (List Nat × List Glyph) :=
  match scanDigits input with
  | ([], _) => none
  | p => some p

/-- The digits before the point; a zero stands alone. -/
def scanWhole (input : List Glyph) : Option (List Nat × List Glyph) :=
  match scanSomeDigits input with
  | some (0 :: _ :: _, _) => none
  | p => p

/-- The digits after a point, if there is a point. -/
def scanFraction : List Glyph → Option (Option (List Nat) × List Glyph)
  | some '.' :: rest => (scanSomeDigits rest).map fun p => (some p.1, p.2)
  | rest => some (none, rest)

/-- The exponent, if there is one. -/
def scanExponent : List Glyph → Option (Option (Bool × List Nat) × List Glyph)
  | some c :: rest =>
    if c = 'e' ∨ c = 'E' then
      match rest with
      | some '-' :: rest' => (scanSomeDigits rest').map fun p => (some (true, p.1), p.2)
      | some '+' :: rest' => (scanSomeDigits rest').map fun p => (some (false, p.1), p.2)
      | _ => (scanSomeDigits rest).map fun p => (some (false, p.1), p.2)
    else some (none, some c :: rest)
  | rest => some (none, rest)

/-- A numeral without its sign. -/
def scanNumeral (negative : Bool) (input : List Glyph) : Option (Numeral × List Glyph) := do
  let (whole, rest) ← scanWhole input
  let (fraction, rest) ← scanFraction rest
  let (exponent, rest) ← scanExponent rest
  pure ({ negative, whole, fraction, exponent }, rest)

/-! ## Tokens -/

/-- White space between tokens. -/
def isSpace (g : Glyph) : Bool :=
  g == some ' ' || g == some '\n' || g == some '\r' || g == some '\t'

/-- A word at the front of the input. -/
def scanWord (word : String) (t : Token) (input : List Glyph) : Token × List Glyph :=
  let gs := Text.glyphs word
  if input.take gs.length == gs then (t, input.drop gs.length) else (.bad, [])

/-- A string whose opening quote has been read. -/
def stringToken (input : List Glyph) : Token × List Glyph :=
  match scanString input with
  | some (pieces, rest) => (.string ((joinPieces pieces).map String.ofList), rest)
  | none => (.bad, [])

/-- A numeral at the front of the input. -/
def numberToken (negative : Bool) (input : List Glyph) : Token × List Glyph :=
  match scanNumeral negative input with
  | some (n, rest) => (.number n, rest)
  | none => (.bad, [])

/-- The token that starts with a glyph, and what follows it. -/
def scanToken (g : Glyph) (rest : List Glyph) : Token × List Glyph :=
  match g with
  | none => (.bad, [])
  | some c =>
    if c = '\x7b' then (.braceOpen, rest)
    else if c = '\x7d' then (.braceClose, rest)
    else if c = '[' then (.bracketOpen, rest)
    else if c = ']' then (.bracketClose, rest)
    else if c = ',' then (.comma, rest)
    else if c = ':' then (.colon, rest)
    else if c = '\x22' then stringToken rest
    else if c = '-' then numberToken true rest
    else if c.isDigit then numberToken false (g :: rest)
    else if c = 'n' then scanWord "null" .null (g :: rest)
    else if c = 't' then scanWord "true" (.flag true) (g :: rest)
    else if c = 'f' then scanWord "false" (.flag false) (g :: rest)
    else (.bad, [])

/-- The tokens of an input, up to the first place where none can be read.  Every token takes at least
one glyph, so the length of the input bounds their number. -/
def scanTokens : (fuel : Nat) → List Glyph → List Token
  | 0, _ => []
  | fuel + 1, input =>
    match input.dropWhile isSpace with
    | [] => []
    | g :: rest =>
      match scanToken g rest with
      | (.bad, _) => [.bad]
      | (t, rest') => t :: scanTokens fuel rest'

/-- The tokens of a text. -/
def tokens (input : List Glyph) : List Token := scanTokens (input.length + 1) input

end TreeSchema.Json
