/-
# TreeSchema.Yaml.Cursor — a place in a YAML text.

Lines and columns carry meaning in YAML, so a place is the remaining characters together with the
line, the column and the count of characters before it.
-/

namespace TreeSchema.Yaml

/-! ## Characters -/

/-- A line end: carriage return, line feed, next line, line separator or paragraph separator. -/
def isBreak (c : Char) : Bool :=
  c == '\n' || c == '\r' || c == '\x85' || c == '\u2028' || c == '\u2029'

/-- A space or a tab. -/
def isSpace (c : Char) : Bool := c == ' ' || c == '\t'

/-- A character of a name: an ASCII letter or digit, an underscore or a hyphen. -/
def isWord (c : Char) : Bool := c.isAlphanum || c == '_' || c == '-'

/-- Whether nothing stands at a place but white space or the end of the text. -/
def isGap : Option Char → Bool
  | some c => isSpace c || isBreak c
  | none => true

/-- Whether a place is the end of its line. -/
def isLineEnd : Option Char → Bool
  | some c => isBreak c
  | none => true

/-- A character with a meaning inside flow collections. -/
def isFlowMark (c : Char) : Bool :=
  c == ',' || c == '[' || c == ']' || c == '\x7b' || c == '\x7d'

/-- A character that a text may hold at all. -/
def isAllowed (c : Char) : Bool :=
  let n := c.toNat
  c == '\t' || c == '\n' || c == '\r' || 0x20 ≤ n && n ≤ 0x7E || n == 0x85
    || 0xA0 ≤ n && n ≤ 0xFFFD && n != 0xFEFF || 0x10000 ≤ n

/-! ## Places -/

/-- A place in a text. -/
structure Cursor where
  rest : List Char
  index : Nat
  line : Nat
  column : Nat

namespace Cursor

/-- The start of a text. -/
def start (text : List Char) : Cursor := ⟨text, 0, 0, 0⟩

/-- The character at a place. -/
def peek (c : Cursor) : Option Char := c.rest.head?

/-- The character some places on. -/
def peekAt (c : Cursor) (n : Nat) : Option Char := c.rest[n]?

/-- Whether a character stands at a place. -/
def sees (c : Cursor) (x : Char) : Bool := c.peek == some x

/-- Goes on by a number of characters on the same line. -/
def skip (c : Cursor) (n : Nat) : Cursor :=
  ⟨c.rest.drop n, c.index + n, c.line, c.column + n⟩

/-- The characters up to the first that fails a test, none of them a line end, and the place after
them. -/
def span (c : Cursor) (p : Char → Bool) : List Char × Cursor :=
  let taken := c.rest.takeWhile p
  (taken, c.skip taken.length)

/-- The place after the characters that pass a test. -/
def skipWhile (c : Cursor) (p : Char → Bool) : Cursor := (c.span p).2

/-- A line end as it counts in a text, and the place after it.  The separators of Unicode stay what
they are, every other line end counts as a line feed. -/
def lineBreak? (c : Cursor) : Option (Char × Cursor) :=
  match c.rest with
  | '\r' :: '\n' :: rest => some ('\n', ⟨rest, c.index + 2, c.line + 1, 0⟩)
  | x :: rest =>
    if isBreak x then
      let counted := if x == '\u2028' || x == '\u2029' then x else '\n'
      some (counted, ⟨rest, c.index + 1, c.line + 1, 0⟩)
    else none
  | [] => none

/-- The place after a line end, if there is one. -/
def skipBreak (c : Cursor) : Cursor :=
  match c.lineBreak? with
  | some (_, c') => c'
  | none => c

/-- Whether a place starts a line with three equal marks that stand alone. -/
def seesMarks (c : Cursor) (x : Char) : Bool :=
  c.column == 0 && c.rest.take 3 == [x, x, x] && isGap (c.peekAt 3)

/-- Whether a place starts a line that ends or begins a document. -/
def atDocumentMark (c : Cursor) : Bool := c.seesMarks '-' || c.seesMarks '.'

/-- The place after blanks and a comment, which must be the end of the line, and its line end. -/
def endOfLine? (c : Cursor) : Option Cursor :=
  let c := c.skipWhile isSpace
  let c := if c.sees '#' then c.skipWhile fun x => !isBreak x else c
  if isLineEnd c.peek then some c.skipBreak else none

end Cursor

end TreeSchema.Yaml
