/-
# TreeSchema.Yaml.Token.Block — literal and folded scalars.

The scalar is the lines that are indented at least as far as its first line.  Its header may say how
far that is, and what becomes of the line ends at the end.
-/
import TreeSchema.Yaml.Cursor

namespace TreeSchema.Yaml

/-- What becomes of the line ends at the end of a block scalar. -/
inductive Chomping where
  /-- None is kept. -/
  | strip
  /-- One is kept. -/
  | clip
  /-- All are kept. -/
  | keep
deriving DecidableEq

/-- What a block scalar says of itself before its first line. -/
structure BlockHeader where
  chomping : Chomping
  /-- How far the lines are indented, counted from what the scalar belongs to. -/
  step : Option Nat

/-- A mark for the chomping at the front. -/
def scanChomping (c : Cursor) : Option (Chomping × Cursor) :=
  if c.sees '+' then some (.keep, c.skip 1)
  else if c.sees '-' then some (.strip, c.skip 1)
  else none

/-- A digit for the indentation at the front; zero is an error. -/
def scanStep (c : Cursor) : Option (Option Nat × Cursor) :=
  match c.peek with
  | some x =>
    if x.isDigit then if x = '0' then none else some (some (x.toNat - 48), c.skip 1)
    else some (none, c)
  | none => some (none, c)

/-- The header: a chomping mark and a digit in any order, then nothing but a comment. -/
def scanBlockHeader (c : Cursor) : Option (BlockHeader × Cursor) := do
  let (header, c) ←
    match scanChomping c with
    | some (chomping, c) => (scanStep c).map fun p => (BlockHeader.mk chomping p.1, p.2)
    | none =>
      match scanStep c with
      | none => none
      | some (step, c) =>
        match step.bind fun _ => scanChomping c with
        | some (chomping, c) => some (BlockHeader.mk chomping step, c)
        | none => some (BlockHeader.mk .clip step, c)
  let c ← c.endOfLine?
  pure (header, c)

/-- Empty lines and the indentation of the line after them. -/
structure Margin where
  /-- The ends of the empty lines. -/
  empties : List Char
  /-- The furthest column reached by spaces. -/
  width : Nat
  cursor : Cursor

/-- Takes empty lines and then spaces up to a column, or all spaces if there is no such column yet.
A tab among them is an error. -/
def scanMargin (indent : Option Nat) :
    (fuel : Nat) → (empties : List Char) → (width : Nat) → Cursor → Option Margin
  | 0, empties, width, c => some ⟨empties, width, c⟩
  | fuel + 1, empties, width, c =>
    let spaces := (c.rest.takeWhile fun x => x == ' ').length
    let c := c.skip (match indent with | some n => min spaces (n - c.column) | none => spaces)
    let width := max width c.column
    if c.sees '\t' && indent.all fun n => decide (c.column < n) then none
    else
      match c.lineBreak? with
      | some (b, c') => scanMargin indent fuel (empties ++ [b]) width c'
      | none => some ⟨empties, width, c⟩

/-- A block scalar read so far. -/
structure BlockScan where
  text : List Char
  /-- The end of the last line. -/
  lineEnd : Option Char
  /-- The ends of the empty lines after it. -/
  empties : List Char

/-- What stands between the last line and the next in the scalar.  In a folded scalar a line feed
between two lines that start with no blank becomes a space, unless empty lines stand between them. -/
def BlockScan.joint (b : BlockScan) (folded lastBlank nextBlank : Bool) : List Char :=
  if folded && b.lineEnd == some '\n' && !lastBlank && !nextBlank then
    if b.empties.isEmpty then [' '] else b.empties
  else b.lineEnd.toList ++ b.empties

/-- Goes on with the lines that start in column `indent`. -/
def scanBlockLines (folded : Bool) (indent : Nat) :
    (fuel : Nat) → (lastBlank : Bool) → BlockScan → Cursor → Option (BlockScan × Cursor)
  | 0, _, b, c => some (b, c)
  | fuel + 1, lastBlank, b, c =>
    if c.column != indent || c.rest.isEmpty then some (b, c)
    else
      let blank := c.peek.any isSpace
      let (line, c) := c.span fun x => !isBreak x
      let text := b.text ++ b.joint folded lastBlank blank ++ line
      let (lineEnd, c) :=
        match c.lineBreak? with
        | some (x, c') => (some x, c')
        | none => (none, c)
      match scanMargin (some indent) (c.rest.length + 1) [] 0 c with
      | none => none
      | some m => scanBlockLines folded indent fuel blank ⟨text, lineEnd, m.empties⟩ m.cursor

/-- The text of a block scalar that has been read to its end. -/
def BlockScan.finish (b : BlockScan) : Chomping → List Char
  | .strip => b.text
  | .clip => b.text ++ b.lineEnd.toList
  | .keep => b.text ++ b.lineEnd.toList ++ b.empties

/-- A block scalar that starts at its mark, inside a block of the given indentation.  Without a digit
in the header the furthest space before the first line that is not empty says where lines start. -/
def scanBlock (folded : Bool) (outer : Int) (c : Cursor) : Option (List Char × Cursor) := do
  let (header, c) ← scanBlockHeader (c.skip 1)
  let indent := header.step.map fun n => (max outer 0 + n).toNat
  let m ← scanMargin indent (c.rest.length + 1) [] 0 c
  let indent := indent.getD (max (max m.width (outer + 1).toNat) 1)
  let (b, c) ← scanBlockLines folded indent (c.rest.length + 1) false ⟨[], none, m.empties⟩ m.cursor
  pure (b.finish header.chomping, c)

end TreeSchema.Yaml
